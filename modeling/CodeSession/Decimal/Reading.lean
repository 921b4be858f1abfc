import CodeSession.Decimal.Binary64
import CodeSession.Text.Blank
import CodeSession.Text.Digits

/-!
# Reading numbers

Number texts: the grammar of decimal floating-point literals, and the two ways in which a text
may dress one up -- digits of any script and underscores between digits (`flexible?`), or ASCII
digits with loosely placed underscores (`lax?`). Spaces around a number are allowed in both.
-/

namespace CodeSession.Decimal

open Text

/-! ## 1. Spaces and underscores -/

/-- The space characters that may surround a number: the blank ones without the controls
    U+001C-001F. -/
def isSpace (c : Char) : Bool :=
  isBlank c && !(0x1C ≤ c.toNat && c.toNat ≤ 0x1F)

/-- Whether a character is a digit between `0` and `9`. -/
def isDigit (c : Char) : Bool :=
  (asciiDigit? c).isSome

/-- The characters without underscores, if each underscore stands between two digits.
    `afterDigit` says that the character before is a digit. -/
def joinDigits? (afterDigit : Bool) : List Char → Option (List Char)
  | [] => some []
  | '_' :: c :: cs =>
    if afterDigit && isDigit c then (joinDigits? true cs).map (c :: ·) else none
  | ['_'] => none
  | c :: cs => (joinDigits? (isDigit c) cs).map (c :: ·)

/-- The characters without underscores, if none stands at an end or beside another. -/
def joinLoosely? (cs : List Char) : Option (List Char) :=
  let doubled := (cs.zip (cs.drop 1)).any fun p => p.1 == '_' && p.2 == '_'
  if cs.head? == some '_' || cs.getLast? == some '_' || doubled then none
  else some (cs.filter (· != '_'))

/-! ## 2. Floating-point literals -/

/-- The sign of a literal and what follows it. -/
def splitSign : List Char → Bool × List Char
  | '-' :: cs => (true, cs)
  | '+' :: cs => (false, cs)
  | cs => (false, cs)

/-- The digits at the start of a literal, as numbers, and what follows them. -/
def splitDigits : List Char → List Nat × List Char
  | [] => ([], [])
  | c :: cs =>
    match asciiDigit? c with
    | some d => (d :: (splitDigits cs).1, (splitDigits cs).2)
    | none => ([], c :: cs)

/-- The exponent part of a literal: none at all, or `e`, a sign and digits to the end. -/
def exponent? : List Char → Option Int
  | [] => some 0
  | e :: cs =>
    if e == 'e' || e == 'E' then
      let (negative, cs) := splitSign cs
      match splitDigits cs with
      | ([], _) => none
      | (ds, []) => some (if negative then -(ofDigits ds : Int) else (ofDigits ds : Int))
      | _ => none
    else none

/-- The fraction digits of a literal and what follows them. -/
def splitFraction : List Char → List Nat × List Char
  | '.' :: cs => splitDigits cs
  | cs => ([], cs)

/-- A literal without spaces and underscores. -/
def literal? (cs : List Char) : Option Binary64 :=
  let (negative, cs) := splitSign cs
  let word := cs.map Char.toLower
  if word == "inf".toList || word == "infinity".toList then some (.infinite negative)
  else if word == "nan".toList then some .nan
  else
    let (whole, rest) := splitDigits cs
    let (fraction, rest) := splitFraction rest
    if whole.isEmpty && fraction.isEmpty then none
    else (exponent? rest).map fun e =>
      Binary64.ofDecimal negative (ofDigits (whole ++ fraction)) (e - fraction.length)

/-! ## 3. Dressed-up numbers -/

/-- Digits of any script as ASCII digits. -/
def toAsciiDigits (cs : List Char) : List Char :=
  cs.map fun c => match digit? c with
    | some d => Char.ofNat (0x30 + d)
    | none => c

/-- A number with spaces around it, digits of any script, and underscores between digits. -/
def flexible? (s : String) : Option Binary64 :=
  (joinDigits? false (toAsciiDigits (trim isSpace s.toList))).bind literal?

/-- A number with spaces around it and underscores that stand apart. -/
def lax? (s : String) : Option Binary64 :=
  let cs := trim isSpace s.toList
  match literal? cs with
  | some x => some x
  | none => (joinLoosely? cs).bind literal?

/-! ## 4. Integers -/

/-- The most digits that an integer may be read from. -/
def digitLimit : Nat := 4300

/-- Why a text is no integer. -/
inductive IntTrouble where
  | notANumber
  | tooLong (digits : Nat)
  deriving DecidableEq, Repr

/-- An integer with spaces around it, digits of any script, and underscores between digits.
    Too many digits are reported before what follows them is looked at. -/
def flexibleInt (s : String) : Except IntTrouble Int :=
  let (negative, cs) := splitSign (toAsciiDigits (trim isSpace s.toList))
  let run := cs.takeWhile fun c => isDigit c || c == '_'
  match joinDigits? false run with
  | none => .error .notANumber
  | some digits =>
    if digits.isEmpty then .error .notANumber
    else if digitLimit < digits.length then .error (.tooLong digits.length)
    else if run.length < cs.length then .error .notANumber
    else
      let n := ofDigits (splitDigits digits).1
      .ok (if negative then -(n : Int) else n)

/-- An integer with spaces around it and underscores that stand apart; a fraction of zeros is
    allowed. -/
def laxInt (s : String) : Except IntTrouble Int :=
  let cs := trim isSpace s.toList
  if digitLimit < cs.length then .error (.tooLong cs.length)
  else
    let (negative, cs) := splitSign cs
    let whole := cs.takeWhile (· != '.')
    let fraction := (cs.dropWhile (· != '.')).drop 1
    let fractionFits := whole.length == cs.length || (!fraction.isEmpty && fraction.all (· == '0'))
    match joinDigits? false whole with
    | some digits =>
      if fractionFits && !digits.isEmpty && digits.all isDigit then
        let n := ofDigits (splitDigits digits).1
        .ok (if negative then -(n : Int) else n)
      else .error .notANumber
    | none => .error .notANumber

end CodeSession.Decimal
