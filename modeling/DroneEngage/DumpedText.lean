import DroneEngage.CommentRemoval
import DroneEngage.JsonText

/-!
# The shape of dumped text

In what `dump` writes, a `/` stands only inside the quoted keys and strings,
where it is written as itself, and every backslash begins an escape that holds
no `/`.  So a comment opens in the text exactly where one opens in a string.
-/

namespace DroneEngage

open CommentRemoval

/-- A character that a text may hold outside of its quotations. -/
def PlainChar (c : Char) : Prop := c ≠ '/' ∧ c ≠ '\\' ∧ c ≠ '\x00'

instance (c : Char) : Decidable (PlainChar c) :=
  inferInstanceAs (Decidable (_ ∧ _))

/-- A text together with the strings it quotes, in order.  Outside of the
quotations all characters are plain. -/
inductive Renders : List Char → List (List Char) → Prop
  | nil : Renders [] []
  | plain {c : Char} {text : List Char} {strings : List (List Char)} :
      PlainChar c → Renders text strings → Renders (c :: text) strings
  | quoted {text : List Char} {strings : List (List Char)} (string : List Char) :
      Renders text strings → Renders (quote string ++ text) (string :: strings)

namespace Renders

theorem plainText {text : List Char} {strings : List (List Char)}
    (rendered : Renders text strings) {front : List Char}
    (plainFront : ∀ c ∈ front, PlainChar c) : Renders (front ++ text) strings := by
  induction front with
  | nil => exact rendered
  | cons c front ih =>
      exact plain (plainFront c List.mem_cons_self)
        (ih fun d member => plainFront d (List.mem_cons_of_mem c member))

theorem of_plain {text : List Char} (plainChars : ∀ c ∈ text, PlainChar c) :
    Renders text [] := by
  simpa using nil.plainText plainChars

theorem append {text text' : List Char} {strings strings' : List (List Char)}
    (rendered : Renders text strings) (rendered' : Renders text' strings') :
    Renders (text ++ text') (strings ++ strings') := by
  induction rendered with
  | nil => exact rendered'
  | plain plainChar _ ih => exact plain plainChar ih
  | quoted string _ ih =>
      rw [List.append_assoc, List.cons_append]
      exact quoted string ih

theorem of_quote (string : List Char) : Renders (quote string) [string] := by
  simpa using quoted string nil

end Renders

section Escapes

/-- The escapes `dump_escaped` writes: those of the control characters, of the
quotation mark and of the backslash. -/
def escapes : List (List Char) :=
  ((List.range 0x20) ++ [0x22, 0x5C]).map fun code => escapeChar (Char.ofNat code)

/-- A character is written as itself or as one of the escapes. -/
theorem escapeChar_cases (c : Char) :
    (escapeChar c = [c] ∧ c ≠ '\\' ∧ c ≠ '\x00') ∨
      (escapeChar c ∈ escapes ∧ c ≠ '/' ∧ c ≠ '*') := by
  by_cases escaped : c.toNat ∈ (List.range 0x20) ++ [0x22, 0x5C]
  · refine .inr ⟨List.mem_map.mpr ⟨c.toNat, escaped, ?_⟩, ?_, ?_⟩
    · rw [Char.ofNat_toNat]
    · rintro rfl
      revert escaped
      decide
    · rintro rfl
      revert escaped
      decide
  · have bounds : ¬ c.toNat < 0x20 ∧ c.toNat ≠ 0x22 ∧ c.toNat ≠ 0x5C := by
      simpa using escaped
    refine .inl ⟨?_, ?_, ?_⟩
    · simp only [escapeChar]
      repeat rw [if_neg (by omega)]
    · rintro rfl
      exact bounds.2.2 rfl
    · rintro rfl
      exact bounds.1 (by decide)

theorem not_mem_of_mem_escapes :
    ∀ escape ∈ escapes, ∀ c ∈ escape, c ∉ ['/', '*', '\n', '\x00'] := by
  have checked : (escapes.all fun escape =>
      escape.all fun c => c ∉ ['/', '*', '\n', '\x00']) = true := by decide
  simpa only [List.all_eq_true, decide_eq_true_eq] using checked

theorem head_of_mem_escapes : ∀ escape ∈ escapes, escape.head? = some '\\' := by
  decide

theorem length_le_of_mem_escapes : ∀ escape ∈ escapes, escape.length ≤ 6 := by
  decide

theorem readSlashes_cons_of_ne {c : Char} (notBackslash : c ≠ '\\')
    (text : List Char) :
    readSlashes (c :: text) = readSlashes text + if c = '/' then 1 else 0 := by
  rw [readSlashes]
  · exact fun equal _ => notBackslash equal
  · exact fun _ _ equal _ => notBackslash equal

theorem readSlashes_append_of_plain {front : List Char}
    (plain : ∀ c ∈ front, c ∉ ['\\', '/']) (text : List Char) :
    readSlashes (front ++ text) = readSlashes text := by
  induction front with
  | nil => rfl
  | cons c front ih =>
      rw [List.forall_mem_cons] at plain
      simp only [List.mem_cons, List.not_mem_nil, or_false, not_or] at plain
      rw [List.cons_append, readSlashes_cons_of_ne plain.1.1, if_neg plain.1.2, Nat.add_zero]
      exact ih (by simpa using plain.2)

/-- The four digits of an escape that has some are not those of a `/`. -/
theorem shape_of_mem_escapes : ∀ escape ∈ escapes,
    escape = '\\' :: escape.getD 1 ' ' :: escape.drop 2 ∧ escape.getD 1 ' ' ≠ '/' ∧
      (escape.drop 2).all (· ∉ ['\\', '/']) ∧
      (escape.getD 1 ' ' = 'u' → (escape.drop 2).length = 4 ∧
        escape.drop 2 ∉ [['0', '0', '2', 'f'], ['0', '0', '2', 'F']]) := by
  decide

theorem readSlashes_escape_append :
    ∀ escape ∈ escapes, ∀ text, readSlashes (escape ++ text) = readSlashes text := by
  intro escape member text
  obtain ⟨shape, notSlash, plain, digits⟩ := shape_of_mem_escapes escape member
  generalize escape.getD 1 ' ' = c at shape notSlash digits
  generalize escape.drop 2 = rest at shape plain digits
  subst shape
  simp only [List.all_eq_true, decide_eq_true_eq] at plain
  rw [List.cons_append, List.cons_append, readSlashes, readSlashes_append_of_plain plain]
  rw [if_neg, Nat.add_zero]
  rintro (slash | ⟨hex, ofSlash⟩)
  · exact notSlash slash
  · obtain ⟨four, other⟩ := digits hex
    rw [List.take_left' four] at ofSlash
    exact other ofSlash

theorem readSlashes_take_escape :
    ∀ escape ∈ escapes, ∀ length ∈ List.range 7, readSlashes (escape.take length) = 0 := by
  decide

end Escapes

section Dump

variable {library : JsonLibrary} (pretty : Option Nat)

theorem plainChar_of_isAlphanum {c : Char} (alphanumeric : c.isAlphanum = true) :
    PlainChar c := by
  refine ⟨?_, ?_, ?_⟩
  · rintro rfl
    revert alphanumeric
    decide
  · rintro rfl
    revert alphanumeric
    decide
  · rintro rfl
    revert alphanumeric
    decide

theorem plainChar_of_mem_toDigits {c : Char} {value : Nat}
    (member : c ∈ Nat.toDigits 10 value) : PlainChar c := by
  have digit := Nat.isDigit_of_mem_toDigits (by decide) (by decide) member
  exact plainChar_of_isAlphanum (by simp [Char.isAlphanum, digit])

theorem plainChar_of_mem_dumpFloat (lawful : library.Lawful) {c : Char} {value : Double}
    (member : c ∈ library.dumpFloat value) : PlainChar c := by
  rcases lawful.floatText value c member with alphanumeric | sign
  · exact plainChar_of_isAlphanum alphanumeric
  · have signs : ∀ sign ∈ ['+', '-', '.'], PlainChar sign := by simp [PlainChar]
    exact signs c sign

theorem plainChar_of_mem_lineBreak {c : Char} {indent : Nat}
    (member : c ∈ lineBreak pretty indent) : PlainChar c := by
  cases pretty with
  | none => simp [lineBreak] at member
  | some step =>
      simp only [lineBreak, List.mem_cons, List.mem_replicate] at member
      rcases member with rfl | ⟨-, rfl⟩ <;> decide

theorem plainChar_of_mem_separator (indent : Nat) :
    ∀ c ∈ ',' :: lineBreak pretty indent, PlainChar c := by
  intro c member
  rcases List.mem_cons.mp member with rfl | inBreak
  · decide
  · exact plainChar_of_mem_lineBreak pretty inBreak

theorem plainChar_of_mem_keySeparator {c : Char}
    (member : c ∈ keySeparator pretty) : PlainChar c := by
  have separators : ∀ c ∈ [':', ' '], PlainChar c := by simp [PlainChar]
  apply separators c
  cases pretty <;> simp_all [keySeparator]

theorem renders_bracketed {opening closing : Char} (plainOpening : PlainChar opening)
    (plainClosing : PlainChar closing) (indent : Nat) {entries strings : List (List Char)}
    (rendered : Renders
      (List.intercalate (',' :: lineBreak pretty (indent + pretty.getD 0)) entries) strings) :
    Renders (bracketed pretty indent opening closing entries) strings := by
  have inside := rendered.append
    (@Renders.of_plain (lineBreak pretty indent ++ [closing]) ?_)
  · simp only [bracketed, List.append_assoc, List.cons_append]
    refine .plain plainOpening (Renders.plainText ?_ fun c member => ?_)
    · simpa using inside
    · exact plainChar_of_mem_lineBreak pretty member
  · intro c member
    rcases List.mem_append.mp member with inBreak | last
    · exact plainChar_of_mem_lineBreak pretty inBreak
    · rw [List.mem_singleton.mp last]
      exact plainClosing

theorem renders_intercalate_cons {separator : List Char}
    (plainSeparator : ∀ c ∈ separator, PlainChar c) {first : List Char}
    {rest : List (List Char)} {firstStrings restStrings : List (List Char)}
    (renderedFirst : Renders first firstStrings)
    (renderedRest : Renders (List.intercalate separator rest) restStrings)
    (noStrings : rest = [] → restStrings = []) :
    Renders (List.intercalate separator (first :: rest)) (firstStrings ++ restStrings) := by
  cases rest with
  | nil => simpa [noStrings] using renderedFirst
  | cons second rest =>
      rw [List.intercalate_cons_cons, List.append_assoc]
      exact renderedFirst.append (renderedRest.plainText plainSeparator)

theorem plainChar_of_mem_word :
    ∀ word ∈ ["null", "true", "false", "[]", "\x7b\x7d"], ∀ c ∈ word.toList,
      PlainChar c := by
  simp [PlainChar]

theorem renders_word {word : String}
    (member : word ∈ ["null", "true", "false", "[]", "\x7b\x7d"]) :
    Renders word.toList [] :=
  Renders.of_plain (plainChar_of_mem_word word member)

mutual

theorem renders_dumpAt (lawful : library.Lawful) : ∀ (indent : Nat) (document : Json),
    Renders (document.dumpAt library pretty indent) document.strings
  | _, .null => renders_word (by simp)
  | _, .boolean true => renders_word (by simp)
  | _, .boolean false => renders_word (by simp)
  | indent, .numberInteger value => by
      apply Renders.of_plain
      intro c member
      simp only [Json.dumpAt] at member
      split at member
      · rcases List.mem_cons.mp member with rfl | digit
        · decide
        · exact plainChar_of_mem_toDigits digit
      · exact plainChar_of_mem_toDigits member
  | _, .numberUnsigned _ => Renders.of_plain fun _ => plainChar_of_mem_toDigits
  | _, .numberFloat _ => Renders.of_plain fun _ => plainChar_of_mem_dumpFloat lawful
  | _, .string text => Renders.of_quote (utf8Chars text)
  | _, .array [] => renders_word (by simp)
  | indent, .array (first :: rest) => by
      rw [Json.dumpAt, Json.strings]
      exact renders_bracketed pretty (by decide) (by decide) indent
        (renders_dumpElements lawful _ (plainChar_of_mem_separator pretty _)
          (first :: rest))
  | _, .object [] => renders_word (by simp)
  | indent, .object (first :: rest) => by
      rw [Json.dumpAt, Json.strings]
      exact renders_bracketed pretty (by decide) (by decide) indent
        (renders_dumpMembers lawful _ (plainChar_of_mem_separator pretty _)
          (first :: rest))

theorem renders_dumpElements (lawful : library.Lawful) (indent : Nat)
    {separator : List Char} (plainSeparator : ∀ c ∈ separator, PlainChar c) :
    ∀ elements : List Json,
      Renders (List.intercalate separator (Json.dumpElements library pretty indent elements))
        (Json.stringsOfElements elements)
  | [] => Renders.nil
  | first :: rest => by
      rw [Json.dumpElements, Json.stringsOfElements]
      refine renders_intercalate_cons plainSeparator (renders_dumpAt lawful indent first)
        (renders_dumpElements lawful indent plainSeparator rest) fun empty => ?_
      cases rest with
      | nil => rfl
      | cons second rest => simp [Json.dumpElements] at empty

theorem renders_dumpMembers (lawful : library.Lawful) (indent : Nat)
    {separator : List Char} (plainSeparator : ∀ c ∈ separator, PlainChar c) :
    ∀ members : List (String × Json),
      Renders (List.intercalate separator (Json.dumpMembers library pretty indent members))
        (Json.stringsOfMembers members)
  | [] => Renders.nil
  | (key, value) :: rest => by
      have keyText : Renders (quote (utf8Chars key) ++ keySeparator pretty)
          [utf8Chars key] :=
        (Renders.of_quote (utf8Chars key)).append
          (Renders.of_plain fun _ => plainChar_of_mem_keySeparator pretty)
      rw [Json.dumpMembers, Json.stringsOfMembers, ← List.cons_append]
      refine renders_intercalate_cons plainSeparator
        (keyText.append (renders_dumpAt lawful indent value))
        (renders_dumpMembers lawful indent plainSeparator rest) fun empty => ?_
      cases rest with
      | nil => rfl
      | cons second rest => simp [Json.dumpMembers] at empty

end

theorem renders_dump (lawful : library.Lawful) (document : Json) :
    Renders (document.dump library pretty) document.strings :=
  renders_dumpAt pretty lawful 0 document

end Dump

section Slashes

theorem count_slash_escapeChar (c : Char) :
    (escapeChar c).count '/' = [c].count '/' := by
  rcases escapeChar_cases c with ⟨itself, -⟩ | ⟨escaped, notSlash, -⟩
  · rw [itself]
  · rw [List.count_singleton, if_neg (by simpa using notSlash), List.count_eq_zero]
    exact fun member => not_mem_of_mem_escapes _ escaped _ member (by simp)

theorem count_slash_quote (string : List Char) :
    (quote string).count '/' = string.count '/' := by
  have inside : (string.flatMap escapeChar).count '/' = string.count '/' := by
    induction string with
    | nil => rfl
    | cons c rest ih =>
        rw [List.flatMap_cons, List.count_append, ih, count_slash_escapeChar,
          ← List.count_append, List.singleton_append]
  simp [quote, inside]

/-- A text holds as many `/` as its strings do. -/
theorem Renders.count_slash {text : List Char} {strings : List (List Char)}
    (rendered : Renders text strings) :
    text.count '/' = (strings.map (List.count '/')).sum := by
  induction rendered with
  | nil => rfl
  | plain plainChar _ ih =>
      rw [List.count_cons_of_ne plainChar.1, ih]
  | quoted string _ ih =>
      rw [List.count_append, count_slash_quote, ih, List.map_cons, List.sum_cons]

theorem Renders.null_not_mem {text : List Char} {strings : List (List Char)}
    (rendered : Renders text strings) : '\x00' ∉ text := by
  have escapedChar (c : Char) : '\x00' ∉ escapeChar c := by
    rcases escapeChar_cases c with ⟨itself, -, notNull⟩ | ⟨escaped, -⟩
    · rw [itself, List.mem_singleton]
      exact Ne.symm notNull
    · exact fun member => not_mem_of_mem_escapes _ escaped _ member (by simp)
  induction rendered with
  | nil => simp
  | plain plainChar _ ih =>
      rw [List.mem_cons, not_or]
      exact ⟨Ne.symm plainChar.2.2, ih⟩
  | quoted string _ ih =>
      simp only [quote, List.mem_append, List.mem_cons, List.mem_flatMap, not_or,
        not_exists, not_and]
      exact ⟨⟨⟨by decide, fun c _ => escapedChar c⟩, by decide, by simp⟩, ih⟩

/-- Escaping a string keeps a `/` or `*` at its front and puts none there. -/
theorem head_escaped_iff (string text : List Char) {c : Char} (opening : c ∈ ['/', '*']) :
    (string.flatMap escapeChar ++ '"' :: text).head? = some c ↔
      string.head? = some c := by
  cases string with
  | nil =>
      have notQuote : c ≠ '"' := by
        rintro rfl
        revert opening
        decide
      simpa using Ne.symm notQuote
  | cons first rest =>
      rw [List.flatMap_cons, List.append_assoc]
      rcases escapeChar_cases first with ⟨itself, -⟩ | ⟨escaped, notSlash, notStar⟩
      · simp [itself]
      · have backslash := head_of_mem_escapes _ escaped
        have notBackslash : c ≠ '\\' := by
          rintro rfl
          revert opening
          decide
        have notFirst : first ≠ c := by
          rintro rfl
          simp [notSlash, notStar] at opening
        rw [List.head?_append, backslash, Option.some_or, List.head?_cons,
          Option.some_inj, Option.some_inj]
        exact iff_of_false (Ne.symm notBackslash) notFirst

theorem opensComment_escaped_append (string text : List Char) :
    OpensComment (string.flatMap escapeChar ++ '"' :: text) ↔
      OpensComment string ∨ OpensComment text := by
  induction string with
  | nil =>
      rw [List.flatMap_nil, ← List.singleton_append, List.nil_append,
        opensComment_append_of_not_mem (by decide)]
      simp [OpensComment]
  | cons c rest ih =>
      have slashHead := head_escaped_iff rest text (by simp : '/' ∈ _)
      have starHead := head_escaped_iff rest text (by simp : '*' ∈ _)
      rw [List.flatMap_cons, List.append_assoc]
      rcases escapeChar_cases c with ⟨itself, -⟩ | ⟨escaped, notSlash, -⟩
      · rw [itself, List.singleton_append, OpensComment, OpensComment, slashHead, starHead,
          ih, or_assoc]
      · rw [opensComment_append_of_not_mem
          (fun member => not_mem_of_mem_escapes _ escaped _ member (by simp)), ih,
          OpensComment]
        simp [notSlash]

/-- A comment opens in a text exactly where one opens in one of its strings. -/
theorem Renders.opensComment_iff {text : List Char} {strings : List (List Char)}
    (rendered : Renders text strings) :
    OpensComment text ↔ ∃ string ∈ strings, OpensComment string := by
  induction rendered with
  | nil => simp [OpensComment]
  | @plain c text strings plainChar _ ih =>
      rw [← ih, ← List.singleton_append]
      exact opensComment_append_of_not_mem (by simpa using Ne.symm plainChar.1) text
  | @quoted text strings string _ ih =>
      have opening : quote string ++ text =
          ['"'] ++ (string.flatMap escapeChar ++ '"' :: text) := by
        simp [quote]
      rw [opening, opensComment_append_of_not_mem (by decide),
        opensComment_escaped_append, ih]
      simp

end Slashes

section Reading

/-- A text in which every backslash begins an escape that `dump` writes, but for
a last escape that is cut off. -/
inductive EscapedText : List Char → Prop
  | nil : EscapedText []
  | cut {escape : List Char} (length : Nat) :
      escape ∈ escapes → EscapedText (escape.take length)
  | itself {c : Char} {text : List Char} :
      c ≠ '\\' → EscapedText text → EscapedText (c :: text)
  | escape {escape text : List Char} :
      escape ∈ escapes → EscapedText text → EscapedText (escape ++ text)

theorem not_mem_take_of_mem_escapes {escape : List Char} (member : escape ∈ escapes)
    (length : Nat) {c : Char} (special : c ∈ ['/', '*', '\n']) :
    c ∉ escape.take length := by
  intro inEscape
  apply not_mem_of_mem_escapes escape member c (List.mem_of_mem_take inEscape)
  exact List.mem_append_left ['\x00'] special

namespace EscapedText

theorem of_renders {text : List Char} {strings : List (List Char)}
    (rendered : Renders text strings) : EscapedText text := by
  have escapedString (string : List Char) {text : List Char}
      (escaped : EscapedText text) :
      EscapedText (string.flatMap escapeChar ++ text) := by
    induction string with
    | nil => exact escaped
    | cons c rest ih =>
        rw [List.flatMap_cons, List.append_assoc]
        rcases escapeChar_cases c with ⟨written, notBackslash, -⟩ | ⟨written, -⟩
        · rw [written]
          exact itself notBackslash ih
        · exact escape written ih
  induction rendered with
  | nil => exact nil
  | plain plainChar _ ih => exact itself plainChar.2.1 ih
  | quoted string _ ih =>
      rw [quote, List.cons_append, List.cons_append, List.append_assoc]
      exact itself (by decide) (escapedString string (itself (by decide) ih))

theorem tail {c : Char} {text : List Char} (escaped : EscapedText (c :: text))
    (notBackslash : c ≠ '\\') : EscapedText text := by
  generalize equal : c :: text = whole at escaped
  cases escaped with
  | nil => simp at equal
  | @cut written length member =>
      have head := congrArg List.head? equal
      have backslash := head_of_mem_escapes written member
      cases length with
      | zero => simp at head
      | succ length => simp [List.head?_take, backslash, notBackslash] at head
  | itself _ escaped =>
      obtain ⟨rfl, rfl⟩ := List.cons.inj equal
      exact escaped
  | @escape written rest member escaped =>
      have head := congrArg List.head? equal
      have backslash := head_of_mem_escapes written member
      simp [List.head?_append, backslash, notBackslash] at head

theorem take {text : List Char} (escaped : EscapedText text) (length : Nat) :
    EscapedText (text.take length) := by
  induction escaped generalizing length with
  | nil =>
      rw [List.take_nil]
      exact nil
  | cut cutLength member =>
      rw [List.take_take]
      exact cut _ member
  | itself notBackslash _ ih =>
      cases length with
      | zero => exact nil
      | succ length => exact itself notBackslash (ih length)
  | @escape written text member _ ih =>
      rw [List.take_append]
      by_cases inside : length ≤ written.length
      · rw [Nat.sub_eq_zero_of_le inside, List.take_zero, List.append_nil]
        exact cut length member
      · rw [List.take_of_length_le (by omega)]
        exact escape member (ih _)

/-- In such a text only the `/` themselves are read as `/`. -/
theorem readSlashes_eq_count {text : List Char} (escaped : EscapedText text) :
    readSlashes text = text.count '/' := by
  induction escaped with
  | nil => rfl
  | @cut written length member =>
      have noSlash := not_mem_take_of_mem_escapes member length (by simp : '/' ∈ _)
      rw [List.count_eq_zero.mpr noSlash]
      have short := length_le_of_mem_escapes written member
      by_cases inside : length < 7
      · exact readSlashes_take_escape written member length (List.mem_range.mpr inside)
      · rw [List.take_of_length_le (by omega), ← List.take_length (l := written)]
        exact readSlashes_take_escape written member _ (List.mem_range.mpr (by omega))
  | itself notBackslash _ ih =>
      rw [readSlashes_cons_of_ne notBackslash, ih, List.count_cons]
      simp
  | @escape written text member _ ih =>
      have noSlash := not_mem_take_of_mem_escapes member written.length (by simp : '/' ∈ _)
      rw [List.take_length] at noSlash
      rw [readSlashes_escape_append written member, ih, List.count_append,
        List.count_eq_zero.mpr noSlash, Nat.zero_add]

theorem tail_of_head? {text : List Char} (escaped : EscapedText text) {c : Char}
    (head : text.head? = some c) (notBackslash : c ≠ '\\') : EscapedText text.tail := by
  obtain ⟨rest, rfl⟩ := List.head?_eq_some_iff.mp head
  exact escaped.tail notBackslash

/-- Removing comments never splits an escape. -/
theorem removeCommentsFrom {text : List Char} (escaped : EscapedText text) :
    EscapedText (removeCommentsFrom false false text) ∧
      EscapedText (removeCommentsFrom true false text) ∧
      EscapedText (removeCommentsFrom false true text) := by
  induction length : text.length using Nat.strongRecOn generalizing text with
  | ind size ih =>
  subst length
  cases escaped with
  | nil => simp [nil]
  | @cut written length member =>
      have unopened := not_mem_take_of_mem_escapes member length (by simp : '/' ∈ _)
      have unclosed := not_mem_take_of_mem_escapes member length (by simp : '*' ∈ _)
      have oneLine := not_mem_take_of_mem_escapes member length (by simp : '\n' ∈ _)
      rw [← List.append_nil (written.take length)]
      rw [removeCommentsFrom_code_append unopened,
        removeCommentsFrom_lineComment_append oneLine,
        removeCommentsFrom_blockComment_append unclosed]
      simp only [removeCommentsFrom_nil, List.append_nil]
      exact ⟨cut length member, nil, nil⟩
  | @itself c rest notBackslash escaped =>
      have shorter : rest.tail.length < (c :: rest).length := by
        rw [List.length_tail, List.length_cons]
        omega
      have sameRest := ih rest.length (Nat.lt_succ_self _) escaped rfl
      refine ⟨?_, ?_, ?_⟩
      · rw [removeCommentsFrom_code]
        split
        · rename_i line
          exact (ih _ shorter (escaped.tail_of_head? line.2 (by decide)) rfl).2.1
        · split
          · rename_i block
            exact (ih _ shorter (escaped.tail_of_head? block.2 (by decide)) rfl).2.2
          · exact itself notBackslash sameRest.1
      · rw [removeCommentsFrom_lineComment]
        cases decide (c ≠ '\n') with
        | false => exact sameRest.1
        | true => exact sameRest.2.1
      · rw [removeCommentsFrom_blockComment]
        split
        · rename_i closes
          exact (ih _ shorter (escaped.tail_of_head? closes.2 (by decide)) rfl).1
        · exact sameRest.2.2
  | @escape written rest member escaped =>
      have unopened := not_mem_take_of_mem_escapes member written.length (by simp : '/' ∈ _)
      have unclosed := not_mem_take_of_mem_escapes member written.length (by simp : '*' ∈ _)
      have oneLine := not_mem_take_of_mem_escapes member written.length (by simp : '\n' ∈ _)
      rw [List.take_length] at unopened unclosed oneLine
      have shorter : rest.length < (written ++ rest).length := by
        have backslash := head_of_mem_escapes written member
        cases written with
        | nil => simp at backslash
        | cons first others => simp only [List.length_append, List.length_cons]; omega
      have sameRest := ih rest.length shorter escaped rfl
      rw [removeCommentsFrom_code_append unopened,
        removeCommentsFrom_lineComment_append oneLine,
        removeCommentsFrom_blockComment_append unclosed]
      exact ⟨escape member sameRest.1, sameRest.2⟩

end EscapedText

end Reading

section Lengths

variable (library : JsonLibrary) (step : Nat)

theorem length_intercalate_le {separator separator' : List Char}
    (shorter : separator.length ≤ separator'.length)
    {entries entries' : List (List Char)}
    (pairwise : List.Forall₂ (fun left right => left.length ≤ right.length)
      entries entries') :
    (List.intercalate separator entries).length ≤
      (List.intercalate separator' entries').length := by
  induction pairwise with
  | nil => simp
  | @cons first first' rest rest' le pairwise ih =>
      cases pairwise with
      | nil => simpa using le
      | cons =>
          simp only [List.intercalate_cons_cons, List.length_append] at ih ⊢
          omega

theorem length_bracketed_le (indent indent' : Nat) (opening closing : Char)
    {entries entries' : List (List Char)}
    (pairwise : List.Forall₂ (fun left right => left.length ≤ right.length)
      entries entries') :
    (bracketed none indent opening closing entries).length ≤
      (bracketed (some step) indent' opening closing entries').length := by
  have shorter : [','].length ≤
      (',' :: lineBreak (some step) (indent' + (some step).getD 0)).length := by
    simp
  have inside := length_intercalate_le shorter pairwise
  simp only [bracketed, List.length_append, List.length_cons, lineBreak,
    List.length_nil] at inside ⊢
  omega

mutual

theorem length_dumpAt_le : ∀ (indent indent' : Nat) (document : Json),
    (document.dumpAt library none indent).length ≤
      (document.dumpAt library (some step) indent').length
  | _, _, .null => Nat.le_refl _
  | _, _, .boolean true => Nat.le_refl _
  | _, _, .boolean false => Nat.le_refl _
  | _, _, .numberInteger _ => Nat.le_refl _
  | _, _, .numberUnsigned _ => Nat.le_refl _
  | _, _, .numberFloat _ => Nat.le_refl _
  | _, _, .string _ => Nat.le_refl _
  | _, _, .array [] => Nat.le_refl _
  | indent, indent', .array (first :: rest) =>
      length_bracketed_le step indent indent' '[' ']'
        (lengths_dumpElements_le _ _ (first :: rest))
  | _, _, .object [] => Nat.le_refl _
  | indent, indent', .object (first :: rest) =>
      length_bracketed_le step indent indent' '\x7b' '\x7d'
        (lengths_dumpMembers_le _ _ (first :: rest))

theorem lengths_dumpElements_le (indent indent' : Nat) : ∀ elements : List Json,
    List.Forall₂ (fun left right => left.length ≤ right.length)
      (Json.dumpElements library none indent elements)
      (Json.dumpElements library (some step) indent' elements)
  | [] => .nil
  | first :: rest =>
      .cons (length_dumpAt_le indent indent' first)
        (lengths_dumpElements_le indent indent' rest)

theorem lengths_dumpMembers_le (indent indent' : Nat) :
    ∀ members : List (String × Json),
      List.Forall₂ (fun left right => left.length ≤ right.length)
        (Json.dumpMembers library none indent members)
        (Json.dumpMembers library (some step) indent' members)
  | [] => .nil
  | (key, value) :: rest => by
      refine .cons ?_ (lengths_dumpMembers_le indent indent' rest)
      have le := length_dumpAt_le indent indent' value
      simp only [List.length_append, keySeparator, List.length_cons, List.length_nil]
      omega

end

/-- The compact form is not longer than a pretty one. -/
theorem length_dump_le (document : Json) :
    (document.dump library none).length ≤ (document.dump library (some step)).length :=
  length_dumpAt_le library step 0 0 document

/-- An object ends with its closing brace. -/
theorem dump_object_ends (pretty : Option Nat) (members : List (String × Json)) :
    ∃ front, (Json.object members).dump library pretty = front ++ ['\x7d'] := by
  cases members with
  | nil => exact ⟨['\x7b'], rfl⟩
  | cons first rest => exact ⟨_, rfl⟩

end Lengths

end DroneEngage
