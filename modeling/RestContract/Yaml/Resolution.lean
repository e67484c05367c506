-- Resolution: what the words of a YAML document stand for. A word without quotes may be
-- null, a truth value or a number; a tag of the core schema asks for one of them.
import RestContract.Json.Reader
import RestContract.Yaml.Node

namespace RestContract.Yaml

/-! ## Words -/

def nullWords : List String := ["null", "Null", "NULL", "~"]

def flagWords : List (String × Bool) :=
  [("true", true), ("True", true), ("TRUE", true),
    ("false", false), ("False", false), ("FALSE", false)]

/-- The words for numbers that are not finite; a plus sign may stand in front of the first
three. -/
def specialWords : List (String × Double) :=
  [(".inf", .infinity false), (".Inf", .infinity false), (".INF", .infinity false),
    ("+.inf", .infinity false), ("+.Inf", .infinity false), ("+.INF", .infinity false),
    ("-.inf", .infinity true), ("-.Inf", .infinity true), ("-.INF", .infinity true),
    (".nan", .nan), (".NaN", .nan), (".NAN", .nan)]

/-- The value of a digit in base sixteen or below. -/
def digitIn? (base : Nat) (c : Char) : Option Nat :=
  (Json.hexValue? c).filter (· < base)

/-- The number that digits of a base stand for; there is at least one. -/
def numberIn? (base : Nat) (digits : List Char) : Option Nat :=
  if digits.isEmpty then none
  else digits.foldlM (fun n c => (digitIn? base c).map (base * n + ·)) 0

/-- The sign in front of a word, and the rest. -/
def splitSign : List Char → Option Char × List Char
  | '+' :: cs => (some '+', cs)
  | '-' :: cs => (some '-', cs)
  | cs => (none, cs)

/-- A zero in front of further digits: such words are no numbers. -/
def isPadded (digits : List Char) : Bool :=
  1 < digits.length && digits.head? == some '0' && digits.all Char.isDigit

/-- The magnitude of an integer: digits in base ten, or in the base that is marked in front
of them. -/
def magnitude? (digits : List Char) : Option Nat :=
  match digits with
  | '0' :: 'x' :: ds => numberIn? 16 ds
  | '0' :: 'o' :: ds => numberIn? 8 ds
  | '0' :: 'b' :: ds => numberIn? 2 ds
  | ds => if isPadded ds then none else numberIn? 10 ds

/-- The integer of a word, within 128 bits. -/
def integer? (word : List Char) : Option Int :=
  let (sign, digits) := splitSign word
  match magnitude? digits with
  | none => none
  | some n =>
    if sign == some '-' then (if n ≤ 1 <<< 127 then some (-n) else none)
    else if n < 1 <<< 128 then some n
    else none

/-- The digits, point and exponent of a floating point number. -/
def readLiteral? (negative : Bool) (cs : List Char) : Option Double :=
  let (whole, cs) := cs.span Char.isDigit
  let (places, cs) :=
    match cs with
    | '.' :: cs => cs.span Char.isDigit
    | cs => ([], cs)
  if whole.isEmpty && places.isEmpty then none
  else match cs with
    | [] => some (.ofLiteral negative whole places 0)
    | 'e' :: cs | 'E' :: cs =>
      let (sign, digits) := splitSign cs
      (numberIn? 10 digits).map fun n =>
        .ofLiteral negative whole places (if sign == some '-' then -n else n)
    | _ => none

/-- The floating point number of a word. A literal has to be finite. -/
def float? (word : List Char) : Option Double :=
  match specialWords.lookup (String.ofList word) with
  | some d => some d
  | none =>
    let (sign, literal) := splitSign word
    (readLiteral? (sign == some '-') literal).filter Double.isFinite

/-! ## Scalars -/

/-- The value of an integer; nothing if 64 bits do not hold it. -/
def integerJson? (n : Int) : Option Json :=
  if minInt64 ≤ n && n ≤ maxUInt64 then some (.int n) else none

/-- The value of a word without quotes and without a tag. -/
def resolveWord (text : String) : Option Json :=
  let word := text.toList
  if text.isEmpty || nullWords.contains text then some .null
  else match flagWords.lookup text with
    | some b => some (.bool b)
    | none =>
      match integer? word with
      | some n => integerJson? n
      | none =>
        match if isPadded (splitSign word).2 then none else float? word with
        | some d => some (.num (.float d))
        | none => some (.str text)

/-- The beginning of the tags of the core schema. -/
def coreTag (name : String) : String := "tag:yaml.org,2002:" ++ name

/-- The tag is of the document's own making. -/
def isLocalTag (tag : String) : Bool := tag.toList.head? == some '!'

/-- The value of a scalar. Local tags have no meaning, and the tags of the core schema
decide what the text has to be; other tags leave it a string. -/
def Scalar.value? (s : Scalar) : Option Json :=
  match s.tag with
  | none => if s.plain then resolveWord s.text else some (.str s.text)
  | some tag =>
    if isLocalTag tag then none
    else if tag == coreTag "bool" then (flagWords.lookup s.text).map .bool
    else if tag == coreTag "int" then (integer? s.text.toList).bind integerJson?
    else if tag == coreTag "float" then (float? s.text.toList).map fun d => .num (.float d)
    else if tag == coreTag "null" then
      if nullWords.contains s.text then some .null else none
    else some (.str s.text)

/-- The scalar says that there is nothing, as far as a field may be absent. Nothing if it
is marked as null and is not. -/
def Scalar.isAbsent? (s : Scalar) : Option Bool :=
  match s.plain, s.tag with
  | false, _ => some false
  | true, none => some (s.text.isEmpty || nullWords.contains s.text)
  | true, some tag =>
    if tag == coreTag "null" then (if nullWords.contains s.text then some true else none)
    else some false

/-! ## Trees -/

namespace Tree

/-- A key as text. Only scalars are keys; where keys are taken for what they stand for, a
key has to be a string. -/
def key? (asValue : Bool) : Tree → Option String
  | .scalar s =>
    if asValue then
      match s.value? with
      | some (.str text) => some text
      | _ => none
    else some s.text
  | _ => none

/-- The tag of a collection may stand there. -/
def isPlainTag (tag : Option String) : Bool := !tag.any isLocalTag

mutual

/-- The value of a tree. The flag says that keys are taken for what they stand for. -/
def value? (strict : Bool) : Tree → Option Json
  | .scalar s => s.value?
  | .sequence tag items =>
    if isPlainTag tag then (values? strict items).map .arr else none
  | .mapping tag entries =>
    if isPlainTag tag then (entryValues? strict entries).map .obj else none

def values? (strict : Bool) : List Tree → Option (List Json)
  | [] => some []
  | t :: ts => do
    let v ← value? strict t
    let vs ← values? strict ts
    return v :: vs

def entryValues? (strict : Bool) : List (Tree × Tree) → Option (List (String × Json))
  | [] => some []
  | (k, t) :: es => do
    let key ← key? strict k
    let v ← value? strict t
    let vs ← entryValues? strict es
    return (key, v) :: vs

end

end Tree

end RestContract.Yaml
