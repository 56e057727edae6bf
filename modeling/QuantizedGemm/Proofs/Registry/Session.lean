import Mathlib.Data.List.Nodup
import QuantizedGemm.Proofs.Settings
import QuantizedGemm.Registry.Session

/-!
# What a session answers

A session remembers two things: the environment, as the last change has left it, and the first pick.
Both are told by the queries before. The environment is a fold over them, and the pick was made in
the environment in force at the first of them that asked for one. Every query keeps this
(`Session.Follows.step`), so that it holds of every state that a session reaches, and a reply
depends on its history through these two alone (`Session.run_answers`).

## Records

A reply comes with all the records that arise on the way to it. A probe of the host leaves one where
portable code is forced, so that a list of what is available leaves one for each variant, and a pick
one for each variant that it looks at. The record of the pick itself follows these, and only the
first pick has any.

## No failures

No pick fails, since the catalogue has portable variants and every host runs them.
-/

namespace QuantizedGemm

/-! ## The catalogue -/

theorem Variant.names_nodup : (Variant.catalogue.map Variant.name).Nodup := by decide +kernel

@[simp] theorem Capabilities.supports_scalarOnly (coreCount : ℕ) (isa : Isa) :
    (Capabilities.scalarOnly coreCount).supports isa = decide (isa = .scalar) := by
  cases isa <;> rfl

namespace Registry

instance (e : Environment) : Decidable e.Forces := decidable_of_iff _ e.forcesScalar_iff

/-- The first item of a list that passes a check, and its place. -/
structure FirstAt {α : Type} (check : α → Bool) (l : List α) (place : ℕ) (a : α) : Prop where
  getElem?_eq : l[place]? = some a
  passes : check a = true
  before : ∀ place' < place, ∀ b, l[place']? = some b → check b = false

namespace FirstAt

variable {α : Type} {check : α → Bool} {l : List α} {place : ℕ} {a b : α}

theorem head (h : check b = true) : FirstAt check (b :: l) 0 b := ⟨rfl, h, nofun⟩

theorem cons (hb : check b = false) (h : FirstAt check l place a) :
    FirstAt check (b :: l) (place + 1) a := by
  refine ⟨h.getElem?_eq, h.passes, fun place' hlt c hc ↦ ?_⟩
  cases place' with
  | zero =>
    cases hc
    exact hb
  | succ place' => exact h.before place' (Nat.lt_of_succ_lt_succ hlt) c hc

theorem head?_filter (h : FirstAt check l place a) : (l.filter check).head? = some a := by
  induction l generalizing place with
  | nil => cases h.getElem?_eq
  | cons b l ih =>
    cases place with
    | zero =>
      cases h.getElem?_eq
      rw [List.filter_cons_of_pos h.passes, List.head?_cons]
    | succ place =>
      have hb := h.before 0 place.succ_pos b rfl
      rw [List.filter_cons_of_neg (by simp [hb])]
      exact ih ⟨h.getElem?_eq, h.passes, fun place' hlt ↦
        h.before (place' + 1) (Nat.succ_lt_succ hlt)⟩

theorem exists_of_mem (hmem : a ∈ l) (ha : check a = true) :
    ∃ place b, FirstAt check l place b := by
  induction l with
  | nil => cases hmem
  | cons c l ih =>
    cases hc : check c with
    | true => exact ⟨0, c, .head hc⟩
    | false =>
      rcases List.mem_cons.mp hmem with rfl | hmem
      · cases ha.symm.trans hc
      · obtain ⟨place, b, hfirst⟩ := ih hmem
        exact ⟨place + 1, b, hfirst.cons hc⟩

end FirstAt

section Host

variable (host : Capabilities) (e : Environment)

/-- Whether a host runs a variant in an environment: where portable code is forced, it runs the
portable variants alone. -/
def runs (v : Variant) : Bool :=
  if e.Forces then decide (v.isa = .scalar) else host.supports v.isa

def supported : List Variant := Variant.catalogue.filter (runs host e)

/-- The records of probes in an environment. -/
def probeRecords (count : ℕ) : List LogRecord :=
  if e.Forces then
    List.replicate count ⟨.debug, "IGEMM_FORCE_SCALAR set: reporting scalar-only capabilities"⟩
  else []

variable {host e} in
theorem supports_of_runs {v : Variant} (h : runs host e v = true) : host.supports v.isa = true := by
  unfold runs at h
  split_ifs at h with hforced
  · have hscalar : v.isa = .scalar := of_decide_eq_true h
    rw [hscalar]
    rfl
  · exact h

theorem probeRecords_succ (count : ℕ) :
    probeRecords e (count + 1) = probeRecords e 1 ++ probeRecords e count := by
  unfold probeRecords
  split_ifs <;> rfl

theorem isAvailable_eq (v : Variant) :
    v.isAvailable host e.forcesScalar = ⟨runs host e v, probeRecords e 1⟩ := by
  rw [Variant.isAvailable, Capabilities.probe, runs, probeRecords]
  by_cases hforces : e.Forces
  · rw [if_pos (e.forcesScalar_iff.mpr hforces), if_pos hforces, if_pos hforces]
    simp [Capabilities.forcedRecord]
  · rw [if_neg (mt e.forcesScalar_iff.mp hforces), if_neg hforces, if_neg hforces]

theorem filter_isAvailable (l : List Variant) :
    Logged.filter (·.isAvailable host e.forcesScalar) l =
      ⟨l.filter (runs host e), probeRecords e l.length⟩ := by
  induction l with
  | nil =>
    rw [Logged.filter, List.length_nil, probeRecords]
    split_ifs <;> rfl
  | cons v l ih =>
    rw [Logged.filter, ih, isAvailable_eq, List.length_cons, probeRecords_succ e l.length,
      List.filter_cons]

/-- A search looks at the variants up to the one that it finds. -/
theorem find?_isAvailable {l : List Variant} {place : ℕ} {v : Variant}
    (h : FirstAt (runs host e) l place v) :
    Logged.find? (·.isAvailable host e.forcesScalar) l =
      ⟨some v, probeRecords e (place + 1)⟩ := by
  induction l generalizing place with
  | nil => cases h.getElem?_eq
  | cons w l ih =>
    rw [Logged.find?, isAvailable_eq]
    cases place with
    | zero =>
      cases h.getElem?_eq
      simp only [h.passes, if_true]
    | succ place =>
      have hw := h.before 0 place.succ_pos w rfl
      have hrest := ih ⟨h.getElem?_eq, h.passes, fun place' hlt ↦
        h.before (place' + 1) (Nat.succ_lt_succ hlt)⟩
      simp only [hw, Bool.false_eq_true, if_false, hrest]
      rw [← probeRecords_succ]

/-- Every host runs some variant, in every environment. -/
theorem exists_first : ∃ place v, FirstAt (runs host e) Variant.catalogue place v := by
  have hportable : Variant.portable FmagicParams ⟨1, 2, 1, 1⟩ ∈ Variant.catalogue :=
    List.mem_append_right _ (by simp [Variant.portableVariants, Variant.plainTiles])
  refine FirstAt.exists_of_mem hportable ?_
  rw [runs]
  split_ifs <;> rfl

end Host

/-- The first pick is the head of what is available. It is kept and logged. -/
theorem selectBest_of_picked_eq_none {r : Registry} {host : Capabilities} {e : Environment}
    {place : ℕ} {v : Variant} (hnone : r.picked = none)
    (hfirst : FirstAt (runs host e) r.variants place v) :
    r.selectBest host e.forcesScalar = ⟨(.ok v, { r with picked := some (some v) }),
      probeRecords e (place + 1) ++ [⟨.info, s!"Selected qu8 igemm variant: {v.name}"⟩]⟩ := by
  simp only [selectBest, hnone, find?_isAvailable host e hfirst, answer, selectionRecord]

/-! ## Histories -/

def Query.environment (e : Environment) : Query → Environment
  | .changeEnvironment e' => e'
  | _ => e

def environmentAfter (e : Environment) (queries : List Query) : Environment :=
  queries.foldl Query.environment e

@[simp] theorem environmentAfter_append (e : Environment) (queries : List Query) (q : Query) :
    environmentAfter e (queries ++ [q]) = q.environment (environmentAfter e queries) :=
  List.foldl_append

/-- What a query is answered in a session that began in the environment `e`, after the queries
`before`. -/
inductive Answers (host : Capabilities) (e : Environment) (before : List Query) :
    Query → Logged Reply → Prop where
  | changed (e' : Environment) : Answers host e before (.changeEnvironment e') ⟨.changed, []⟩
  /-- The first pick is the head of what the host runs, and it is logged after the probes up to
  it. -/
  | firstPick {place : ℕ} {v : Variant} (hnone : .selectBest ∉ before)
      (hfirst : FirstAt (runs host (environmentAfter e before)) Variant.catalogue place v)
      (hhead : (supported host (environmentAfter e before)).head? = some v) :
      Answers host e before .selectBest ⟨.picked (.ok v),
        probeRecords (environmentAfter e before) (place + 1) ++
          [⟨.info, s!"Selected qu8 igemm variant: {v.name}"⟩]⟩
  /-- A later pick is the head of what the host ran at the first one, and nothing is logged. -/
  | laterPick {v : Variant} {before₁ before₂ : List Query}
      (hbefore : before = before₁ ++ .selectBest :: before₂) (hnone : .selectBest ∉ before₁)
      (hhead : (supported host (environmentAfter e before₁)).head? = some v) :
      Answers host e before .selectBest ⟨.picked (.ok v), []⟩
  /-- A list probes the host for each variant. -/
  | available : Answers host e before .listAvailable
      ⟨.available ((supported host (environmentAfter e before)).map Variant.name),
        probeRecords (environmentAfter e before) 35⟩
  | found {v : Variant} (hmem : v ∈ Variant.catalogue)
      (hunique : ∀ w ∈ Variant.catalogue, w.name = v.name → w = v) :
      Answers host e before (.find v.name) ⟨.found (.ok v), []⟩
  | unknown {name : String} (hname : ∀ w ∈ Variant.catalogue, w.name ≠ name) :
      Answers host e before (.find name) ⟨.found (.error (.kernel (.unknownVariant name))), []⟩
  | variants : Answers host e before .listVariants ⟨.variants Variant.catalogue, []⟩

namespace Session

/-- A session with a fresh registry. -/
def fresh (e : Environment) : Session := ⟨create.value, e⟩

variable {host : Capabilities} {e : Environment} {before : List Query} {s : Session}

/-- The state of a session that began in the environment `e`, after the queries `before`. -/
structure Follows (host : Capabilities) (e : Environment) (before : List Query) (s : Session) :
    Prop where
  variants : s.registry.variants = Variant.catalogue
  environment : s.environment = environmentAfter e before
  picked : (.selectBest ∉ before ∧ s.registry.picked = none) ∨
    ∃ before₁ before₂, before = before₁ ++ .selectBest :: before₂ ∧ .selectBest ∉ before₁ ∧
      s.registry.picked = some (supported host (environmentAfter e before₁)).head?

theorem follows_fresh (host : Capabilities) (e : Environment) : Follows host e [] (fresh e) :=
  ⟨rfl, rfl, .inl ⟨List.not_mem_nil, rfl⟩⟩

/-- A query that asks for no pick keeps the pick, whatever it does to the environment. -/
theorem Follows.of_picked_eq {q : Query} {s' : Session} (h : Follows host e before s)
    (hq : q ≠ .selectBest) (hregistry : s'.registry = s.registry)
    (henv : s'.environment = q.environment s.environment) : Follows host e (before ++ [q]) s' := by
  refine ⟨hregistry ▸ h.variants, ?_, ?_⟩
  · rw [henv, h.environment, environmentAfter_append]
  · rw [hregistry]
    rcases h.picked with ⟨hfirst, hnone⟩ | ⟨before₁, before₂, rfl, hfirst, hsome⟩
    · exact .inl ⟨by simp [hfirst, hq.symm], hnone⟩
    · exact .inr ⟨before₁, before₂ ++ [q], by simp, hfirst, hsome⟩

theorem Follows.step_selectBest (h : Follows host e before s) :
    Answers host e before .selectBest (step host s .selectBest).1 ∧
      Follows host e (before ++ [.selectBest]) (step host s .selectBest).2 := by
  have henv : s.environment = environmentAfter e (before ++ [.selectBest]) := by
    rw [environmentAfter_append, h.environment]
    rfl
  rcases h.picked with ⟨hnone, hpicked⟩ | ⟨before₁, before₂, rfl, hnone, hpicked⟩
  · -- the choice is made now
    obtain ⟨place, v, hfirst⟩ := exists_first host (environmentAfter e before)
    have hpick := selectBest_of_picked_eq_none hpicked (h.variants ▸ hfirst)
    rw [← h.environment] at hpick
    have hstep : step host s .selectBest = (⟨.picked (.ok v),
          probeRecords s.environment (place + 1) ++
            [⟨.info, s!"Selected qu8 igemm variant: {v.name}"⟩]⟩,
        { s with registry := { s.registry with picked := some (some v) } }) := by
      simp only [step, hpick]
    rw [hstep]
    refine ⟨?_, h.variants, henv,
      .inr ⟨before, [], rfl, hnone, congrArg some hfirst.head?_filter.symm⟩⟩
    rw [h.environment]
    exact .firstPick hnone hfirst hfirst.head?_filter
  · -- the choice that was made is answered
    obtain ⟨place, v, hfirst⟩ := exists_first host (environmentAfter e before₁)
    have hhead : (supported host (environmentAfter e before₁)).head? = some v :=
      hfirst.head?_filter
    have hstep : step host s .selectBest = (⟨.picked (.ok v), []⟩, s) := by
      simp only [step, selectBest, hpicked, hhead, answer]
    rw [hstep]
    exact ⟨.laterPick rfl hnone hhead, h.variants, henv,
      .inr ⟨before₁, before₂ ++ [.selectBest], by simp, hnone, hpicked⟩⟩

theorem Follows.step_listAvailable (h : Follows host e before s) :
    Answers host e before .listAvailable (step host s .listAvailable).1 := by
  have hlength : Variant.catalogue.length = 35 := rfl
  simp only [step, available, h.variants, h.environment, filter_isAvailable, hlength]
  exact .available

theorem Follows.step_find (h : Follows host e before s) (name : String) :
    Answers host e before (.find name) (step host s (.find name)).1 := by
  simp only [step]
  cases hfind : s.registry.variants.find? fun v ↦ v.name == name with
  | none =>
    have hname : ∀ w ∈ Variant.catalogue, w.name ≠ name := by
      simpa [h.variants] using hfind
    simp only [find, hfind]
    exact .unknown hname
  | some v =>
    have hmem := List.mem_of_find?_eq_some hfind
    obtain rfl : v.name = name := by simpa using List.find?_some hfind
    rw [h.variants] at hmem
    simp only [find, hfind]
    exact .found hmem fun w hw hname ↦ List.inj_on_of_nodup_map Variant.names_nodup hw hmem hname

/-- Every query is answered as the history says, and keeps track of it. -/
theorem Follows.step (h : Follows host e before s) (q : Query) :
    Answers host e before q (step host s q).1 ∧
      Follows host e (before ++ [q]) (step host s q).2 := by
  cases q with
  | changeEnvironment e' => exact ⟨.changed e', h.of_picked_eq nofun rfl rfl⟩
  | selectBest => exact h.step_selectBest
  | listAvailable => exact ⟨h.step_listAvailable, h.of_picked_eq nofun rfl rfl⟩
  | find name => exact ⟨h.step_find name, h.of_picked_eq nofun rfl rfl⟩
  | listVariants =>
    refine ⟨?_, h.of_picked_eq nofun rfl rfl⟩
    simp only [Session.step, h.variants]
    exact .variants

theorem Follows.run (h : Follows host e before s) (queries : List Query) (q : Query)
    (after : List Query) : ∃ r, (run host s (queries ++ q :: after))[queries.length]? = some r ∧
      Answers host e (before ++ queries) q r := by
  induction queries generalizing before s with
  | nil => exact ⟨(Session.step host s q).1, rfl, by simpa using (h.step q).1⟩
  | cons q' queries ih =>
    obtain ⟨r, hget, hanswer⟩ := ih (h.step q').2
    exact ⟨r, hget, by simpa using hanswer⟩

@[simp] theorem length_run (host : Capabilities) (s : Session) (queries : List Query) :
    (Session.run host s queries).length = queries.length := by
  induction queries generalizing s with
  | nil => rfl
  | cons q queries ih => exact congrArg (· + 1) (ih _)

/-- **Every reply of a session follows from the queries before it.** On any host, in whatever
environment the session begins and whatever becomes of it, a session with a fresh registry answers
each of its queries as the history says. -/
theorem run_answers (host : Capabilities) (e : Environment) (before : List Query) (q : Query)
    (after : List Query) :
    (Session.run host (fresh e) (before ++ q :: after)).length = (before ++ q :: after).length ∧
      ∃ r, (Session.run host (fresh e) (before ++ q :: after))[before.length]? = some r ∧
        Answers host e before q r :=
  ⟨length_run .., (follows_fresh host e).run before q after⟩

end Session

end Registry

end QuantizedGemm
