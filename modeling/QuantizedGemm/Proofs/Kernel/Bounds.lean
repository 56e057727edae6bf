import QuantizedGemm.Proofs.Kernel.Catalogue

/-!
# Calls and the bounds of their buffers

Every read and every store of a kernel is checked, and a call that has been accepted should not run
into any of these checks. This file says to what extent this is so (`Variant.kernel_outcome`).

## Reads

A call that is accepted has complete operands for each of its tiles, and on complete operands no
computation goes out of bounds. The positions that weights are read from lie in the packed tile,
also those of padding (`Variant.ReadsWithin`).

## Stores

With the stores this is different. The check asks for room up to the last column (`outputLength`),
and the last column lies in the last column tile. Where tiles lie closer together than they are
wide, the full tile before that one may end later, by the `overhang` of the call. A store fits or it
does not, whatever is in the buffer, and a loop of stores fits if all of them do
(`StoresWithin.forM`). So it is a matter of sizes alone whether an accepted call succeeds or runs
out of bounds.

## Overflows

A portable kernel computes with the numbers of its parameters. Those that are derived from arguments
have room. For other ones it may happen that a tile overflows, which ends the call as well.
-/

namespace QuantizedGemm

/-! ## The end of the stores -/

/-- How far the column tile before the last one reaches past the last column. -/
def Call.overhang (call : Call) (t : TileShape) : ℕ :=
  if call.nc ≤ t.nr then 0 else t.nr - (call.cnStride + (call.nc - 1) % t.nr + 1)

/-- Tiles that are not closer together than they are wide have no overhang. -/
theorem Call.overhang_eq_zero {call : Call} {t : TileShape}
    (h : t.nr ≤ call.cnStride + (call.nc - 1) % t.nr + 1 ∨ call.nc ≤ t.nr) :
    call.overhang t = 0 := by
  rw [overhang]
  split_ifs with hnc
  · rfl
  · omega

namespace TileShape

variable {t : TileShape} {call : Call}

theorem columnTiles_eq (hnr : 0 < t.nr) (hnc : 0 < call.nc) :
    t.columnTiles call.nc = (call.nc - 1) / t.nr + 1 := by
  rw [columnTiles, divideUp, show call.nc + t.nr - 1 = call.nc - 1 + t.nr by omega,
    Nat.add_div_right _ hnr]

theorem tileColumns_of_lt {tile : ℕ} (h : tile < (call.nc - 1) / t.nr) :
    t.tileColumns call tile = t.nr := by
  have hle : (tile + 1) * t.nr ≤ call.nc - 1 :=
    (Nat.mul_le_mul_right t.nr h).trans (Nat.div_mul_le_self _ _)
  rw [Nat.succ_mul] at hle
  exact Nat.min_eq_left (by omega)

theorem tileColumns_last (hnr : 0 < t.nr) (hnc : 0 < call.nc) :
    t.tileColumns call ((call.nc - 1) / t.nr) = (call.nc - 1) % t.nr + 1 := by
  have hdiv := Nat.div_add_mod' (call.nc - 1) t.nr
  have hmod := Nat.mod_lt (call.nc - 1) hnr
  unfold tileColumns
  omega

/-- The stores of a call end where its overhang ends. -/
theorem forall_store_le_iff (hnr : 0 < t.nr) (hmr : 0 < call.mr) (hnc : 0 < call.nc) {size : ℕ} :
    (∀ tile < t.columnTiles call.nc, ∀ i < call.mr,
      tile * call.cnStride + i * call.cmStride + t.tileColumns call tile ≤ size) ↔
    outputLength call.mr call.nc t.nr call.cmStride call.cnStride + call.overhang t ≤ size := by
  have hlength : outputLength call.mr call.nc t.nr call.cmStride call.cnStride =
      (call.mr - 1) * call.cmStride + (call.nc - 1) / t.nr * call.cnStride +
        (call.nc - 1) % t.nr + 1 := if_neg (by omega)
  have hlast := tileColumns_last hnr hnc
  rw [columnTiles_eq hnr hnc, hlength, Call.overhang]
  constructor
  · intro h
    have hend := h _ (Nat.lt_succ_self _) (call.mr - 1) (by omega)
    rw [hlast] at hend
    split_ifs with hone
    · omega
    · -- the full tile before the last one
      obtain ⟨full, hfull⟩ := Nat.exists_eq_add_one.mpr
        (Nat.div_pos (by omega : t.nr ≤ call.nc - 1) hnr)
      have hbefore := h full (by omega) (call.mr - 1) (by omega)
      rw [tileColumns_of_lt (by omega)] at hbefore
      rw [hfull, Nat.succ_mul] at hend ⊢
      omega
  · intro h tile htile i hi
    have hrow : i * call.cmStride ≤ (call.mr - 1) * call.cmStride :=
      Nat.mul_le_mul_right _ (by omega)
    rcases Nat.lt_succ_iff_lt_or_eq.mp htile with hlt | rfl
    · -- a full tile, at most as far as the last one of them
      have hstart : (tile + 1) * call.cnStride ≤ (call.nc - 1) / t.nr * call.cnStride :=
        Nat.mul_le_mul_right _ hlt
      have hone : ¬call.nc ≤ t.nr := fun hle ↦ by
        rw [Nat.div_eq_of_lt (by omega : call.nc - 1 < t.nr)] at hlt
        omega
      rw [if_neg hone] at h
      rw [Nat.succ_mul] at hstart
      rw [tileColumns_of_lt hlt]
      omega
    · rw [hlast]
      omega

end TileShape

/-! ## Stores -/

/-- How a run ends that stores into a buffer of a size and keeps this size. It succeeds only if its
stores fit, and goes out of bounds only if they do not. Otherwise it overflows, which takes a
risk. -/
inductive StoreEnd (size : ℕ) (fits risk : Prop) : EStateM.Result Failure Bytes Unit → Prop where
  | ok (h : fits) {c : Bytes} (hc : c.size = size) : StoreEnd size fits risk (.ok () c)
  | outOfBounds (h : ¬fits) {c : Bytes} (hc : c.size = size) :
    StoreEnd size fits risk (.error (.fault .outOfBounds) c)
  | overflow (h : risk) {c : Bytes} (hc : c.size = size) :
    StoreEnd size fits risk (.error (.fault .overflow) c)

/-- A run that ends like this on every buffer of the size. -/
def StoresWithin (size : ℕ) (fits risk : Prop) (run : EStateM Failure Bytes Unit) : Prop :=
  ∀ c : Bytes, c.size = size → StoreEnd size fits risk (run c)

namespace StoresWithin

variable {size : ℕ}

theorem fits_of_ok {fits risk : Prop} {run : EStateM Failure Bytes Unit} {c c' : Bytes}
    (h : StoresWithin size fits risk run) (hc : c.size = size) (hrun : run c = .ok () c') :
    fits := by
  cases hrun ▸ h c hc with
  | ok hfits _ => exact hfits

theorem storeRow (start cols : ℕ) (row : Bytes) (risk : Prop) :
    StoresWithin size (start + cols ≤ size) risk (storeRow start cols row) := by
  intro c hc
  by_cases hfits : start + cols ≤ size
  · rw [Microkernel.storeRow_eq_ok row (hc ▸ hfits)]
    exact .ok hfits ((Bytes.size_overwrite ..).trans hc)
  · unfold QuantizedGemm.storeRow
    rw [run_bind_of_ok run_get, if_neg (hc ▸ hfits)]
    exact .outOfBounds hfits hc

/-- The stores of a loop fit if those of every step do, and each step may be the one that
overflows. -/
theorem forM {α : Type} {step : α → EStateM Failure Bytes Unit} {fits risk : α → Prop}
    {l : List α} (h : ∀ a ∈ l, StoresWithin size (fits a) (risk a) (step a)) :
    StoresWithin size (∀ a ∈ l, fits a) (∃ a ∈ l, risk a) (l.forM step) := by
  induction l with
  | nil => exact fun c hc ↦ .ok nofun hc
  | cons a l ih =>
    intro c hc
    have htail := ih fun b hb ↦ h b (List.mem_cons_of_mem a hb)
    have hhead := h a List.mem_cons_self c hc
    change StoreEnd _ _ _ ((step a >>= fun _ ↦ l.forM step) c)
    generalize hrun : step a c = ended at hhead
    cases hhead with
    | ok hfits hc₁ =>
      rw [run_bind_of_ok hrun]
      generalize l.forM step _ = ended, htail _ hc₁ = hrest
      cases hrest with
      | ok hrest hc₂ => exact .ok (List.forall_mem_cons.mpr ⟨hfits, hrest⟩) hc₂
      | outOfBounds hmiss hc₂ =>
        exact .outOfBounds (fun hall ↦ hmiss (List.forall_mem_cons.mp hall).2) hc₂
      | overflow hrisk hc₂ =>
        obtain ⟨b, hb, hrisk⟩ := hrisk
        exact .overflow ⟨b, List.mem_cons_of_mem a hb, hrisk⟩ hc₂
    | outOfBounds hmiss hc₁ =>
      rw [run_bind_of_error hrun]
      exact .outOfBounds (fun hall ↦ hmiss (List.forall_mem_cons.mp hall).1) hc₁
    | overflow hrisk hc₁ =>
      rw [run_bind_of_error hrun]
      exact .overflow ⟨a, List.mem_cons_self, hrisk⟩ hc₁

theorem forM_range {n : ℕ} {step : ℕ → EStateM Failure Bytes Unit} {fits risk : ℕ → Prop}
    (h : ∀ i < n, StoresWithin size (fits i) (risk i) (step i)) :
    StoresWithin size (∀ i < n, fits i) (∃ i < n, risk i) ((List.range n).forM step) := by
  have hloop := forM fun i hi ↦ h i (List.mem_range.mp hi)
  simpa only [List.mem_range] using hloop

end StoresWithin

/-! ## Runs -/

namespace Microkernel

variable {π : Type} {k : Microkernel π} {value : π → UInt8 → Int32}
  {stage : π → Int32 → Except Fault UInt8} {sound : π → Prop} {p : π} {host : Capabilities}
  {call : Call} {size : ℕ}

/-- Some tile of a call has no room. -/
def Overflows (k : Microkernel π) (p : π) (call : Call) : Prop :=
  ∃ tile < k.shape.columnTiles call.nc,
    k.compute p (call.operands k.shape tile) = .error .overflow

section Stores

variable (hk : k.Accumulates value stage sound)
  (hover : ∀ {o : TileOperands}, o.Complete k.shape → OnlyOverflows (k.compute p o))

include hk hover

theorem Accumulates.storesWithin_runTile (h : k.shape.Admits call size) {tile : ℕ}
    (htile : tile < k.shape.columnTiles call.nc) :
    StoresWithin size
      (∀ i < call.mr, tile * call.cnStride + i * call.cmStride +
        k.shape.tileColumns call tile ≤ size)
      (k.compute p (call.operands k.shape tile) = .error .overflow)
      (k.runTile p call (call.operands k.shape tile).rows tile) := by
  have ho := Call.operands_complete h htile
  cases hout : k.compute p (call.operands k.shape tile) with
  | ok out =>
    rw [runTile_eq_storeTile h htile hout, storeTile, hk.size_out ho hout,
      Nat.min_eq_left h.mr_le]
    have hstores : StoresWithin size _ _ ((List.range call.mr).forM fun i ↦
        storeRow (tile * call.cnStride + i * call.cmStride) (k.shape.tileColumns call tile)
          (out.getD i #[])) :=
      .forM_range fun i _ ↦ .storeRow _ _ _ False
    simpa using hstores
  | error fault =>
    obtain rfl := hover ho fault hout
    intro c hc
    rw [runTile_eq_fault h htile hout]
    exact .overflow rfl hc

theorem Accumulates.storesWithin_kernel [ParamsFamily π] (hnr : 0 < k.shape.nr)
    (hp : call.params.get π = .ok p) (hhost : host.supports k.isa)
    (h : k.shape.Admits call size) :
    StoresWithin size
      (outputLength call.mr call.nc k.shape.nr call.cmStride call.cnStride +
        call.overhang k.shape ≤ size)
      (k.Overflows p call) (k.kernel host call) := by
  intro c hc
  have hstores : StoresWithin size _ (k.Overflows p call)
      ((List.range (k.shape.columnTiles call.nc)).forM
        (k.runTile p call (call.operands k.shape 0).rows)) :=
    .forM_range fun tile htile ↦ hk.storesWithin_runTile hover h htile
  rw [TileShape.forall_store_le_iff hnr h.mr_pos h.nc_pos] at hstores
  rw [kernel_eq_forM hp hhost (hc ▸ h)]
  exact hstores c hc

end Stores

theorem Accumulates.not_overflows (hk : k.Accumulates value stage sound)
    (h : k.shape.Admits call size) (hsound : sound p) : ¬k.Overflows p call := by
  rintro ⟨tile, htile, hover⟩
  obtain ⟨out, hout⟩ := hk.exists_out (Call.operands_complete h htile) hsound
  cases hout.symm.trans hover

/-- A call that succeeds has computed its tiles and had room for its stores, and has painted its
outputs. -/
theorem Accumulates.eq_paint_of_ok [ParamsFamily π] (hk : k.Accumulates value stage sound)
    (hover : ∀ {o : TileOperands}, o.Complete k.shape → OnlyOverflows (k.compute p o))
    (hnr : 0 < k.shape.nr) (hp : call.params.get π = .ok p) (hhost : host.supports k.isa)
    {c b : Bytes}
    (h : k.shape.Admits call c.size) (hrun : k.kernel host call c = .ok () b) :
    k.Computes p call ∧
    (∀ i < call.mr, ∀ j < call.nc,
      outputPosition k.shape.nr call.cmStride call.cnStride i j < c.size) ∧
    b = k.shape.paint call (k.colour p call) c := by
  have hcomputes := hk.computes_of_exists h fun tile htile ↦
    exists_compute_of_ok hp hhost h hrun htile
  have hroom := (hk.storesWithin_kernel hover hnr hp hhost h).fits_of_ok rfl hrun
  have hfits := (TileShape.forall_store_le_iff hnr h.mr_pos h.nc_pos).mpr hroom
  refine ⟨hcomputes, fun i hi j hj ↦ ?_, ?_⟩
  · have hlane := TileShape.mod_lt_tileColumns hnr hj
    have hend := hfits _ (div_lt_divideUp hnr hj) i hi
    have hposition := TileShape.position_of_lt hlane i
    rw [Nat.div_add_mod'] at hposition
    omega
  · rw [kernel_eq_paint hp hhost h hcomputes hfits] at hrun
    cases hrun
    rfl

/-- Where the stores fit, an accepted call succeeds unless a tile overflows. -/
theorem Accumulates.ok_or_overflows [ParamsFamily π] (hk : k.Accumulates value stage sound)
    (hover : ∀ {o : TileOperands}, o.Complete k.shape → OnlyOverflows (k.compute p o))
    (hnr : 0 < k.shape.nr) (hp : call.params.get π = .ok p) (hhost : host.supports k.isa)
    {c : Bytes} (h : k.shape.Admits call c.size)
    (hfits : outputLength call.mr call.nc k.shape.nr call.cmStride call.cnStride +
      call.overhang k.shape ≤ c.size) :
    (¬k.Overflows p call ∧ ∃ b, k.kernel host call c = .ok () b) ∨
      (k.Overflows p call ∧ ∃ b, k.kernel host call c = .error (.fault .overflow) b) := by
  have hend := hk.storesWithin_kernel hover hnr hp hhost h c rfl
  cases hrun : k.kernel host call c with
  | ok _ b =>
    refine Or.inl ⟨?_, b, rfl⟩
    rintro ⟨tile, htile, hoverflow⟩
    obtain ⟨out, hout⟩ := exists_compute_of_ok hp hhost h hrun htile
    cases hout.symm.trans hoverflow
  | error e b =>
    cases hrun ▸ hend with
    | outOfBounds hmiss _ => exact absurd hfits hmiss
    | overflow hoverflow _ => exact Or.inr ⟨hoverflow, b, rfl⟩

section Refused

variable [ParamsFamily π] {c : Bytes}

theorem kernel_eq_refused (hp : call.params.get π = .ok p) {e : Error}
    (h : k.shape.check call c.size = .error e) :
    k.kernel host call c = .error (.refused e) c := by
  unfold kernel
  rw [run_bind_of_ok (run_orRefuse hp), run_bind_of_ok run_get]
  exact run_bind_of_error (run_orRefuse_of_error h)

theorem kernel_eq_unsupported (hp : call.params.get π = .ok p)
    (h : k.shape.Admits call c.size) (hhost : host.supports k.isa = false) :
    k.kernel host call c = .error (.refused (unsupportedHardware k.isa)) c := by
  unfold kernel
  rw [run_bind_of_ok (run_orRefuse hp), run_bind_of_ok run_get,
    run_bind_of_ok (run_orRefuse (TileShape.check_eq_ok_iff.mpr h)), hhost]
  rfl

theorem kernel_eq_mismatch [LawfulFamily π] (h : call.params.family ≠ ParamsFamily.family π) :
    k.kernel host call c =
      .error (.refused (familyMismatch (ParamsFamily.family π) call.params.family)) c := by
  unfold kernel
  exact run_bind_of_error (run_orRefuse_of_error (Params.get_of_family_ne h))

end Refused

end Microkernel

namespace Variant

/-- Every read of a call is within its buffers. The rows of the call are there, each column tile has
its packed weights, and the positions of the bias words and of all lanes, padding included, are
positions of a packed tile. The computation of a tile checks each of its reads and never goes out of
bounds, whatever the parameters are. -/
def ReadsWithin (v : Variant) (call : Call) : Prop :=
  ∃ (π : Type) (_ : ParamsFamily π) (k : Microkernel π),
    v.shape = k.shape ∧ v.kernel = k.kernel ∧
    ∀ tile < v.shape.columnTiles call.nc,
      call.fetchRows? v.shape.mr = some (call.operands v.shape tile).rows ∧
      call.tileWeights? (v.shape.packedTileSize call.ks call.kc) tile =
        some (call.operands v.shape tile).weights ∧
      (call.operands v.shape tile).Complete v.shape ∧
      (∀ j < v.shape.nr, 4 * j + 4 ≤ v.shape.packedTileSize call.ks call.kc) ∧
      (∀ tap < call.ks, ∀ block < Portable.blocks v.shape (call.operands v.shape tile),
        ∀ step < v.shape.sr, ∀ j < v.shape.nr, ∀ lane < v.shape.kr,
          Portable.weightPosition v.shape (call.operands v.shape tile) tap block step j lane <
            v.shape.packedTileSize call.ks call.kc) ∧
      ∀ (p : π) (fault : Fault),
        k.compute p (call.operands v.shape tile) = .error fault → fault = .overflow

theorem readsWithin_of_admits {v : Variant} (hv : v ∈ catalogue) {call : Call} {size : ℕ}
    (h : v.shape.Admits call size) : v.ReadsWithin call := by
  obtain ⟨-, -, hkr, hsr⟩ := shape_pos hv
  obtain ⟨π, _, _, k, value, stage, sound, hk⟩ := exists_implements hv
  refine ⟨π, _, k, hk.shape_eq, hk.kernel_eq, fun tile htile ↦ ?_⟩
  have ho := Call.operands_complete h htile
  refine ⟨fetchRows?_of_admits h tile, tileWeights?_of_admits h htile, ho, fun j hj ↦ ?_,
    fun tap htap block hblock step hstep j hj lane hlane ↦ ?_, fun p ↦ ?_⟩
  · have hbias := TileShape.mul_four_le_packedTileSize v.shape call.ks call.kc
    omega
  · exact Portable.weightPosition_lt hkr hsr htap hblock hstep hj hlane
  · exact hk.onlyOverflows p (hk.shape_eq ▸ ho)

/-- **The outcome of a call.** Parameters of another family, a check that fails and a host without
the instructions are refused, in this order, and the buffer is left alone. On any other call every
read is within bounds. The call succeeds if the buffer has room for the overhang and goes out of
bounds if it does not, but for portable kernels whose parameters no arguments lead to, which may
overflow. Under strides that keep tiles apart there always is room. -/
theorem kernel_outcome {v : Variant} (hv : v ∈ catalogue) (host : Capabilities) (call : Call)
    (c : Bytes) :
    (call.params.family ≠ v.family → v.kernel host call c =
      .error (.refused (familyMismatch v.family call.params.family)) c) ∧
    (call.params.family = v.family →
      (∀ e, v.shape.check call c.size = .error e →
        v.kernel host call c = .error (.refused e) c) ∧
      (v.shape.check call c.size = .ok () →
        (host.supports v.isa = false →
          v.kernel host call c = .error (.refused (unsupportedHardware v.isa)) c) ∧
        (host.supports v.isa = true →
          let room := outputLength call.mr call.nc v.shape.nr call.cmStride call.cnStride +
            call.overhang v.shape
          v.ReadsWithin call ∧
          (v.shape.nr ≤ call.cnStride + (call.nc - 1) % v.shape.nr + 1 ∨ call.nc ≤ v.shape.nr →
            room ≤ c.size) ∧
          ∃ c', c'.size = c.size ∧
            (room ≤ c.size ∧ v.kernel host call c = .ok () c' ∨
              c.size < room ∧ v.kernel host call c = .error (.fault .outOfBounds) c' ∨
              (v.isa = .scalar ∧ ∀ a, v.derive a ≠ .ok call.params) ∧
                v.kernel host call c = .error (.fault .overflow) c')))) := by
  have hnr := (shape_pos hv).2.1
  obtain ⟨π, _, _, k, value, stage, sound, hk⟩ := exists_implements hv
  rw [hk.family_eq, hk.kernel_eq]
  refine ⟨fun hother ↦ Microkernel.kernel_eq_mismatch hother, fun hown ↦ ?_⟩
  obtain ⟨p, hp⟩ := Params.exists_get hown
  refine ⟨fun e hcheck ↦ ?_, fun hcheck ↦ ⟨fun hhost ↦ ?_, fun hhost ↦ ?_⟩⟩
  · rw [hk.shape_eq] at hcheck
    exact Microkernel.kernel_eq_refused hp hcheck
  · rw [hk.shape_eq] at hcheck
    rw [hk.isa_eq] at hhost ⊢
    exact Microkernel.kernel_eq_unsupported hp (TileShape.check_eq_ok_iff.mp hcheck) hhost
  · have hadmits := TileShape.check_eq_ok_iff.mp hcheck
    refine ⟨readsWithin_of_admits hv hadmits, fun hstride ↦ ?_, ?_⟩
    · rw [Call.overhang_eq_zero hstride]
      exact hadmits.output
    · rw [hk.shape_eq] at hadmits hnr ⊢
      rw [hk.isa_eq] at hhost
      have hend := hk.accumulates.storesWithin_kernel (hk.onlyOverflows p) hnr hp hhost hadmits
        c rfl
      generalize k.kernel host call c = ended at hend ⊢
      cases hend with
      | ok hfits hc => exact ⟨_, hc, Or.inl ⟨hfits, rfl⟩⟩
      | outOfBounds hmiss hc => exact ⟨_, hc, Or.inr (Or.inl ⟨Nat.not_le.mp hmiss, rfl⟩)⟩
      | overflow hover hc =>
        refine ⟨_, hc, Or.inr (Or.inr ⟨⟨?_, fun a hderive ↦ ?_⟩, rfl⟩)⟩
        · by_contra hisa
          exact hk.accumulates.not_overflows hadmits (hk.sound_of_isa hisa p) hover
        · obtain ⟨q, hq, hsound, -⟩ := hk.derived hderive
          cases hp.symm.trans hq
          exact hk.accumulates.not_overflows hadmits hsound hover

/-- Five columns in tiles of four that start one byte apart. -/
def narrowCall : Call where
  mr := 1
  nc := 5
  kc := 1
  ks := 1
  view := ⟨#[.input 0], #[0], #[0], 0⟩
  weights := Array.replicate 40 0
  cmStride := 1
  cnStride := 1
  params := .lrintf (QuantizationArgs.lrintfParams ⟨0, .ofBits 0x3F000000, 0, 0, 255⟩)

theorem narrowCall_derived : (portable LrintfParams ⟨1, 4, 1, 1⟩).derive
    ⟨0, .ofBits 0x3F000000, 0, 0, 255⟩ = .ok narrowCall.params := by
  decide +kernel

/-- The last column is the second byte, but the first tile has four. -/
theorem narrowCall_outcome :
    (portable LrintfParams ⟨1, 4, 1, 1⟩).shape.check narrowCall 3 = .ok () ∧
    (∃ c', (portable LrintfParams ⟨1, 4, 1, 1⟩).kernel (.scalarOnly 1) narrowCall #[0, 0, 0] =
      .error (.fault .outOfBounds) c' ∧ c'.size = 3) ∧
    (∃ c', (portable LrintfParams ⟨1, 4, 1, 1⟩).kernel (.scalarOnly 1) narrowCall #[0, 0, 0, 0] =
      .ok () c' ∧ c'.size = 4) ∧
    (vector (EightColumn.microkernel 2)).kernel (.scalarOnly 1) narrowCall #[] =
      .error (.refused (familyMismatch .simd .lrintf)) #[] := by
  have hv : portable LrintfParams ⟨1, 4, 1, 1⟩ ∈ catalogue := by
    simp [catalogue, portableVariants, plainTiles]
  have hvector : vector (EightColumn.microkernel 2) ∈ catalogue := by
    simp [catalogue, vectorVariants]
  have hthree := (kernel_outcome hv (.scalarOnly 1) narrowCall #[0, 0, 0]).2 rfl
  have hfour := (kernel_outcome hv (.scalarOnly 1) narrowCall #[0, 0, 0, 0]).2 rfl
  refine ⟨rfl, ?_, ?_, (kernel_outcome hvector (.scalarOnly 1) narrowCall #[]).1 (by decide)⟩
  · obtain ⟨-, -, c', hc', ⟨hroom, -⟩ | ⟨-, hrun⟩ | ⟨⟨-, hnone⟩, -⟩⟩ := (hthree.2 rfl).2 rfl
    · exact absurd hroom (by decide)
    · exact ⟨c', hrun, hc'⟩
    · exact absurd narrowCall_derived (hnone _)
  · obtain ⟨-, -, c', hc', ⟨-, hrun⟩ | ⟨hroom, -⟩ | ⟨⟨-, hnone⟩, -⟩⟩ := (hfour.2 rfl).2 rfl
    · exact ⟨c', hrun, hc'⟩
    · exact absurd hroom (by decide)
    · exact absurd narrowCall_derived (hnone _)

/-- A zero point that no byte is overflows on the way to the first output. -/
example : (portable LrintfParams ⟨1, 4, 1, 1⟩).kernel (.scalarOnly 1)
    { narrowCall with params := .lrintf ⟨Int32.minValue, .ofBits 0, .ofBits 0, .ofBits 0, 0⟩ }
    #[7, 7, 7, 7] = .error (.fault .overflow) #[7, 7, 7, 7] := rfl

/-- The check accepts a call that then goes out of bounds. -/
theorem check_insufficient :
    portable LrintfParams ⟨1, 4, 1, 1⟩ ∈ catalogue ∧
    (portable LrintfParams ⟨1, 4, 1, 1⟩).shape.check narrowCall 2 = .ok () ∧
    (portable LrintfParams ⟨1, 4, 1, 1⟩).kernel (.scalarOnly 1) narrowCall #[0, 0] =
      .error (.fault .outOfBounds) #[0, 0] := by
  refine ⟨?_, rfl, rfl⟩
  simp [catalogue, portableVariants, plainTiles]

end Variant

end QuantizedGemm
