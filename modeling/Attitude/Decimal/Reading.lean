import Attitude.Scalar.Double
import Attitude.Text.Blank
import Attitude.Text.Digit

/-!
# Numbers written as text

A number may have blanks around it, a sign, digits with single underscores between them, a point and
a power of ten. The words for infinity and for no number are read in any case.
-/

namespace Attitude.Decimal

/-- What a text says. -/
inductive Number where
  /-- The number `± mantissa · 10 ^ exponent`. -/
  | finite (negative : Bool) (mantissa : Nat) (exponent : Int)
  | infinite (negative : Bool)
  | notANumber
  deriving DecidableEq, Repr

namespace Number

/-- Powers of ten beyond this bound are zero or infinite as doubles. -/
def exponentBound : Int := 400

/-- The double nearest to the number. -/
def toFloat : Number → Float
  | notANumber => Double.notANumber
  | infinite negative => if negative then -Double.infinity else Double.infinity
  | finite negative mantissa exponent =>
    let magnitude : Float :=
      let leading := exponent + (Nat.toDigits 10 mantissa).length
      if mantissa = 0 then 0
      else if leading < -exponentBound then 0
      else if exponentBound < leading then Double.infinity
      else Float.ofScientific mantissa (exponent < 0) exponent.natAbs
    if negative then -magnitude else magnitude

end Number

/-- The rest of a run of digits after its first one: digits, each with at most one underscore before
it. -/
def digitTail : List Char → List Nat × List Char
  | '_' :: c :: cs =>
    match Text.digit? c with
    | some d => let (ds, rest) := digitTail cs; (d :: ds, rest)
    | none => ([], '_' :: c :: cs)
  | c :: cs =>
    match Text.digit? c with
    | some d => let (ds, rest) := digitTail cs; (d :: ds, rest)
    | none => ([], c :: cs)
  | [] => ([], [])

/-- A run of digits, which may be empty, and what follows it. -/
def digitRun : List Char → List Nat × List Char
  | c :: cs =>
    match Text.digit? c with
    | some d => let (ds, rest) := digitTail cs; (d :: ds, rest)
    | none => ([], c :: cs)
  | [] => ([], [])

/-- The number that a list of digits stands for. -/
def ofDigits (ds : List Nat) : Nat := ds.foldl (fun n d => 10 * n + d) 0

/-- An optional sign: whether it is a minus, and what follows it. -/
def signed : List Char → Bool × List Char
  | '+' :: cs => (false, cs)
  | '-' :: cs => (true, cs)
  | cs => (false, cs)

/-- An optional point with the digits after it. -/
def fraction : List Char → List Nat × List Char
  | '.' :: cs => digitRun cs
  | cs => ([], cs)

/-- The power of ten at the end of a number: nothing, or a letter `e` with a whole number. -/
def scale? : List Char → Option Int
  | [] => some 0
  | c :: cs =>
    if c = 'e' ∨ c = 'E' then
      let (negative, cs) := signed cs
      match digitRun cs with
      | ([], _) => none
      | (ds, []) => some (if negative then -(ofDigits ds : Int) else ofDigits ds)
      | _ => none
    else none

/-- A number without blanks and sign. -/
def magnitude? (negative : Bool) (cs : List Char) : Option Number :=
  let word := String.ofList (cs.map Char.toLower)
  if word = "inf" ∨ word = "infinity" then some (.infinite negative)
  else if word = "nan" then some .notANumber
  else
    let (whole, cs) := digitRun cs
    let (part, cs) := fraction cs
    if whole = [] ∧ part = [] then none
    else (scale? cs).map fun e =>
      .finite negative (ofDigits (whole ++ part)) (e - part.length)

/-- The number that a text stands for. -/
def Number.ofText? (s : String) : Option Number :=
  let (negative, cs) := signed (Text.trim s.toList)
  magnitude? negative cs

end Attitude.Decimal
