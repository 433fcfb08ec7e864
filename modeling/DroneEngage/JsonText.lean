import DroneEngage.JsonValues

/-!
# The text that `dump` writes

The serializer of the vendored library is modelled down to its characters: the
pretty form with an indentation step and the compact form, and the escapes in
strings.  Parsing and the digits of a double belong to the library's own
algorithms; they are fields of `JsonLibrary`, with the laws that its source
bears out.
-/

namespace DroneEngage

/-- The characters of a C++ string: the bytes of its UTF-8 form. -/
def utf8Chars (text : String) : List Char :=
  text.toByteArray.data.toList.map fun byte => Char.ofNat byte.toNat

theorem toNat_ofNat_byte {n : Nat} (small : n < 256) : (Char.ofNat n).toNat = n := by
  have all : ∀ n < 256, (Char.ofNat n).toNat = n := by decide +kernel
  exact all n small

theorem utf8Chars_append (first second : String) :
    utf8Chars (first ++ second) = utf8Chars first ++ utf8Chars second := by
  unfold utf8Chars
  rw [String.toByteArray_append, ByteArray.data_append, Array.toList_append, List.map_append]

theorem utf8Chars_injective : Function.Injective utf8Chars := by
  have byteChar : Function.Injective fun byte : UInt8 => Char.ofNat byte.toNat := by
    intro left right same
    have codes := congrArg Char.toNat same
    rw [toNat_ofNat_byte left.toNat_lt, toNat_ofNat_byte right.toNat_lt] at codes
    exact UInt8.toNat_inj.mp codes
  intro first second same
  apply String.toByteArray_inj.mp
  apply ByteArray.ext
  exact Array.toList_inj.mp (List.map_injective_iff.mpr byteChar same)

/-- The bytes that `dump_escaped` writes for one byte of a string. -/
def escapeChar (c : Char) : List Char :=
  if c.toNat = 0x08 then ['\\', 'b']
  else if c.toNat = 0x09 then ['\\', 't']
  else if c.toNat = 0x0A then ['\\', 'n']
  else if c.toNat = 0x0C then ['\\', 'f']
  else if c.toNat = 0x0D then ['\\', 'r']
  else if c.toNat = 0x22 then ['\\', '"']
  else if c.toNat = 0x5C then ['\\', '\\']
  else if c.toNat ≤ 0x1F then
    ['\\', 'u', '0', '0', (c.toNat / 16).digitChar, (c.toNat % 16).digitChar]
  else [c]

/-- A string between its quotation marks. -/
def quote (text : List Char) : List Char :=
  '"' :: text.flatMap escapeChar ++ ['"']

/-- The line break before an element of a container, in the pretty form. -/
def lineBreak (pretty : Option Nat) (indent : Nat) : List Char :=
  match pretty with
  | none => []
  | some _ => '\n' :: List.replicate indent ' '

/-- What stands between a key and its value. -/
def keySeparator (pretty : Option Nat) : List Char :=
  match pretty with
  | none => [':']
  | some _ => [':', ' ']

/-- Opening bracket, elements on lines of their own, closing bracket. -/
def bracketed (pretty : Option Nat) (indent : Nat) (opening closing : Char)
    (entries : List (List Char)) : List Char :=
  let inner := lineBreak pretty (indent + pretty.getD 0)
  opening :: inner ++ List.intercalate (',' :: inner) entries ++
    lineBreak pretty indent ++ [closing]

/-- The parts of the library that are not written out here. -/
structure JsonLibrary where
  /-- `Json_de::parse`; `none` where it throws -/
  parse : List Char → Option Json
  /-- the text of a double -/
  dumpFloat : Double → List Char
  /-- objects are `std::map`s -/
  parse_wellFormed : ∀ {text document}, parse text = some document →
    document.WellFormed

theorem Json.wellFormed_of_none_eq {document : Json} (parsed : none = some document) :
    document.WellFormed := by
  cases parsed

/-- The library where no text is read. -/
def JsonLibrary.writing (dumpFloat : Double → List Char) : JsonLibrary where
  parse := fun _ => none
  dumpFloat := dumpFloat
  parse_wellFormed := Json.wellFormed_of_none_eq

namespace Json

section Dump

variable (library : JsonLibrary) (pretty : Option Nat)

mutual

/-- `serializer::dump` at the current indentation; `pretty` is the step. -/
def dumpAt : Nat → Json → List Char
  | _, null => "null".toList
  | _, boolean true => "true".toList
  | _, boolean false => "false".toList
  | _, numberInteger value =>
      if value.toInt < 0 then '-' :: Nat.toDigits 10 value.toInt.natAbs
      else Nat.toDigits 10 value.toInt.natAbs
  | _, numberUnsigned value => Nat.toDigits 10 value.toNat
  | _, numberFloat value => library.dumpFloat value
  | _, string text => quote (utf8Chars text)
  | _, array [] => "[]".toList
  | indent, array (first :: rest) =>
      bracketed pretty indent '[' ']'
        (dumpElements (indent + pretty.getD 0) (first :: rest))
  | _, object [] => "\x7b\x7d".toList
  | indent, object (first :: rest) =>
      bracketed pretty indent '\x7b' '\x7d'
        (dumpMembers (indent + pretty.getD 0) (first :: rest))

def dumpElements : Nat → List Json → List (List Char)
  | _, [] => []
  | indent, first :: rest => dumpAt indent first :: dumpElements indent rest

def dumpMembers : Nat → List (String × Json) → List (List Char)
  | _, [] => []
  | indent, (key, value) :: rest =>
      (quote (utf8Chars key) ++ keySeparator pretty ++ dumpAt indent value) ::
        dumpMembers indent rest

end

end Dump

/-- `dump(indent)`; without an indentation step the compact form. -/
def dump (library : JsonLibrary) (document : Json) (pretty : Option Nat) : List Char :=
  dumpAt library pretty 0 document

section Congruence

variable {library other : JsonLibrary} (pretty : Option Nat)

mutual

theorem dumpAt_congr (digits : library.dumpFloat = other.dumpFloat) :
    ∀ (indent : Nat) (document : Json),
      document.dumpAt library pretty indent = document.dumpAt other pretty indent
  | _, null => rfl
  | _, boolean true => rfl
  | _, boolean false => rfl
  | _, numberInteger _ => rfl
  | _, numberUnsigned _ => rfl
  | _, numberFloat _ => by rw [dumpAt, dumpAt, digits]
  | _, string _ => rfl
  | _, array [] => rfl
  | indent, array (first :: rest) => by
      rw [dumpAt, dumpAt, dumpElements_congr digits _ (first :: rest)]
  | _, object [] => rfl
  | indent, object (first :: rest) => by
      rw [dumpAt, dumpAt, dumpMembers_congr digits _ (first :: rest)]

theorem dumpElements_congr (digits : library.dumpFloat = other.dumpFloat) :
    ∀ (indent : Nat) (elements : List Json),
      dumpElements library pretty indent elements = dumpElements other pretty indent elements
  | _, [] => rfl
  | indent, first :: rest => by
      rw [dumpElements, dumpElements, dumpAt_congr digits indent first,
        dumpElements_congr digits indent rest]

theorem dumpMembers_congr (digits : library.dumpFloat = other.dumpFloat) :
    ∀ (indent : Nat) (members : List (String × Json)),
      dumpMembers library pretty indent members = dumpMembers other pretty indent members
  | _, [] => rfl
  | indent, (key, value) :: rest => by
      rw [dumpMembers, dumpMembers, dumpAt_congr digits indent value,
        dumpMembers_congr digits indent rest]

end

/-- The text depends on the library only for the digits of doubles. -/
theorem dump_congr (digits : library.dumpFloat = other.dumpFloat) (document : Json) :
    document.dump library pretty = document.dump other pretty :=
  dumpAt_congr pretty digits 0 document

end Congruence

mutual

/-- Every key and string of a document, in the order they are written. -/
def strings : Json → List (List Char)
  | string text => [utf8Chars text]
  | array elements => stringsOfElements elements
  | object members => stringsOfMembers members
  | _ => []

def stringsOfElements : List Json → List (List Char)
  | [] => []
  | first :: rest => strings first ++ stringsOfElements rest

def stringsOfMembers : List (String × Json) → List (List Char)
  | [] => []
  | (key, value) :: rest =>
      utf8Chars key :: (strings value ++ stringsOfMembers rest)

end

/-- The number of `/` in the keys and strings of a document. -/
def slashes (document : Json) : Nat :=
  (document.strings.map (List.count '/')).sum

end Json

/-- How often a JSON text writes a `/`, as itself or as an escape. -/
def readSlashes : List Char → Nat
  | [] => 0
  | ['\\'] => 0
  | '\\' :: c :: rest =>
      readSlashes rest +
        if c = '/' ∨ c = 'u' ∧ rest.take 4 ∈ [['0', '0', '2', 'f'], ['0', '0', '2', 'F']]
        then 1 else 0
  | c :: rest => readSlashes rest + if c = '/' then 1 else 0

/-- What the parser and the number formatting are relied on for. -/
structure JsonLibrary.Lawful (library : JsonLibrary) : Prop where
  /-- a double is written with digits, letters, signs and a point -/
  floatText : ∀ value, ∀ c ∈ library.dumpFloat value,
    c.isAlphanum = true ∨ c ∈ ['+', '-', '.']
  /-- a `/` in a key or string was written as itself or as an escape -/
  slashesRead : ∀ {text document}, library.parse text = some document →
    document.slashes ≤ readSlashes text
  /-- only white space follows a complete object -/
  selfDelimiting : ∀ {text more members document}, '\x00' ∉ text ++ more →
    library.parse text = some (.object members) →
    library.parse (text ++ more) = some document →
    ∀ c ∈ more, c ∈ [' ', '\t', '\n', '\r']

end DroneEngage
