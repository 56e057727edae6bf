import QuantizedGemm.Text.Letter
import QuantizedGemm.Text.Numeral

/-!
# Numbers with a fraction and an exponent

A number is an optional sign and then digits with an optional point before, between or behind them
and an optional exponent, or one of the words for what is no finite number.
-/

namespace QuantizedGemm.Text

/-- What is left after an optional sign. -/
def dropSign : List Char → List Char
  | '+' :: cs => cs
  | '-' :: cs => cs
  | cs => cs

/-- Whether `cs` is nothing or an exponent. -/
def isExponent : List Char → Bool
  | [] => true
  | e :: cs => (e = 'e' || e = 'E') && !(dropSign cs).isEmpty && (dropSign cs).all isDigit

/-- Whether `cs` is a finite number without a sign. -/
def isUnsignedNumber (cs : List Char) : Bool :=
  let whole := cs.takeWhile isDigit
  match cs.dropWhile isDigit with
  | '.' :: rest =>
    !(whole ++ rest.takeWhile isDigit).isEmpty && isExponent (rest.dropWhile isDigit)
  | rest => !whole.isEmpty && isExponent rest

/-- The words for what is no finite number. -/
def numberWords : List String := ["inf", "infinity", "nan"]

def isNumber (cs : List Char) : Bool :=
  isUnsignedNumber (dropSign cs) || numberWords.any fun word ↦ spells word (dropSign cs)

end QuantizedGemm.Text
