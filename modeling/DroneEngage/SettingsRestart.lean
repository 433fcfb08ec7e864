import DroneEngage.LocalSettings
import DroneEngage.ObservationRoundTrip

/-!
# The local settings after a restart

`apply` writes the settings, and the next process reads them through the removal of
comments and of trailing commas, which both look into strings as well.  The parser is
handed what was written exactly when no string opens a comment or has a comma with blanks
and a closing bracket behind it; then every setting is read as it was set last.
-/

namespace DroneEngage

open CommentRemoval EventRuns

/-- The next character that is no white space closes a bracket. -/
def Closes (text : List Char) : Prop :=
  (text.dropWhile isSpace).head? ∈ [some '\x7d', some ']']

/-- No comma of the text is taken for a trailing one. -/
def KeepsCommas : List Char → Prop
  | [] => True
  | c :: rest => ¬ (c = ',' ∧ Closes rest) ∧ KeepsCommas rest

/-- The same of a string that is quoted: of all white space only blanks are left as they
are. -/
def StringKeepsCommas : List Char → Prop
  | [] => True
  | c :: rest =>
      ¬ (c = ',' ∧ (rest.dropWhile (· = ' ')).head? ∈ [some '\x7d', some ']']) ∧
        StringKeepsCommas rest

section Commas

variable {front text string : List Char}

theorem length_dropTrailingCommas_le (text : List Char) :
    (dropTrailingCommas text).length ≤ text.length := by
  induction text with
  | nil => exact le_rfl
  | cons c rest ih =>
      rw [dropTrailingCommas]
      split
      · exact Nat.le_succ_of_le ih
      · exact Nat.succ_le_succ ih

theorem dropTrailingCommas_eq_iff : dropTrailingCommas text = text ↔ KeepsCommas text := by
  induction text with
  | nil => exact iff_of_true rfl trivial
  | cons c rest ih =>
      have shorter := length_dropTrailingCommas_le rest
      rw [dropTrailingCommas, KeepsCommas]
      split
      · rename_i dropped
        refine iff_of_false (fun same => ?_) (fun keeps => keeps.1 dropped)
        have lengths := congrArg List.length same
        rw [List.length_cons] at lengths
        omega
      · rename_i kept
        rw [List.cons.injEq, ih]
        exact ⟨fun keeps => ⟨kept, keeps.2⟩, fun keeps => ⟨rfl, keeps.2⟩⟩

theorem count_slash_dropTrailingCommas (text : List Char) :
    (dropTrailingCommas text).count '/' = text.count '/' := by
  induction text with
  | nil => rfl
  | cons c rest ih =>
      rw [dropTrailingCommas]
      split
      · rename_i dropped
        rw [ih, dropped.1, List.count_cons_of_ne (by decide)]
      · rw [List.count_cons, List.count_cons, ih]

theorem keepsCommas_append_of_no_comma (noComma : ',' ∉ front) :
    KeepsCommas (front ++ text) ↔ KeepsCommas text := by
  induction front with
  | nil => rfl
  | cons c front ih =>
      rw [List.mem_cons, not_or] at noComma
      rw [List.cons_append, KeepsCommas, ih noComma.2]
      exact and_iff_right fun dropped => noComma.1 dropped.1.symm

theorem not_closes_of_head {c : Char} (solid : isSpace c = false) (open' : c ∉ ['\x7d', ']'])
    (text : List Char) : ¬ Closes (c :: text) := by
  rw [Closes, List.dropWhile_cons_of_neg (by simp [solid]), List.head?_cons]
  simpa using open'

/-- The escapes, seen from the commas: a backslash in front and no comma inside. -/
theorem comma_not_mem_escapes : ∀ escape ∈ escapes,
    ',' ∉ escape ∧ escape = '\\' :: escape.drop 1 := by
  decide

/-- A bracket behind a comma and blanks in a string is seen in its quoted text, and there
is no other. -/
theorem closes_quoted_iff :
    Closes (string.flatMap escapeChar ++ '"' :: text) ↔
      (string.dropWhile (· = ' ')).head? ∈ [some '\x7d', some ']'] := by
  induction string with
  | nil => exact iff_of_false (not_closes_of_head (by decide) (by decide) text) (by decide)
  | cons c rest ih =>
      rw [List.flatMap_cons, List.append_assoc]
      by_cases blank : c = ' '
      · subst blank
        rw [List.dropWhile_cons_of_pos (by decide), ← ih]
        rw [show escapeChar ' ' = [' '] from rfl, List.singleton_append, Closes,
          List.dropWhile_cons_of_pos (by decide), Closes]
      · rw [List.dropWhile_cons_of_neg (by simpa using blank), List.head?_cons]
        rcases escapeChar_cases c with ⟨itself, -, -⟩ | ⟨escaped, -, -⟩
        · have solid : isSpace c = false := by
            by_contra space
            have spaces : ∀ c ∈ ['\t', '\n', '\x0b', '\x0c', '\r'], escapeChar c ≠ [c] :=
              List.forall_iff_forall_mem.1 (by decide)
            have among : c ∈ ' ' :: ['\t', '\n', '\x0b', '\x0c', '\r'] := by
              simpa only [isSpace, Bool.not_eq_false, decide_eq_true_eq] using space
            exact spaces c (List.mem_of_ne_of_mem blank among) itself
          rw [itself, List.singleton_append, Closes,
            List.dropWhile_cons_of_neg (by simp [solid]), List.head?_cons]
        · obtain ⟨-, shape⟩ := comma_not_mem_escapes _ escaped
          have brackets : ∀ c ∈ ['\x7d', ']'], escapeChar c ∉ escapes :=
            List.forall_iff_forall_mem.1 (by decide)
          have noBracket : c ∉ ['\x7d', ']'] := fun bracket => brackets c bracket escaped
          rw [shape, List.cons_append]
          refine iff_of_false (not_closes_of_head (by decide) (by decide) _) ?_
          simpa using noBracket

theorem keepsCommas_quoted_iff :
    KeepsCommas (string.flatMap escapeChar ++ '"' :: text) ↔
      StringKeepsCommas string ∧ KeepsCommas text := by
  induction string with
  | nil =>
      simp [KeepsCommas, StringKeepsCommas]
  | cons c rest ih =>
      rw [List.flatMap_cons, List.append_assoc, StringKeepsCommas]
      by_cases comma : c = ','
      · subst comma
        rw [show escapeChar ',' = [','] from rfl, List.singleton_append, KeepsCommas, ih,
          closes_quoted_iff, and_assoc]
      · have noComma : ',' ∉ escapeChar c := by
          rcases escapeChar_cases c with ⟨itself, -, -⟩ | ⟨escaped, -, -⟩
          · rw [itself, List.mem_singleton]
            exact Ne.symm comma
          · exact (comma_not_mem_escapes _ escaped).1
        rw [keepsCommas_append_of_no_comma noComma, ih]
        simp [comma]

theorem keepsCommas_quote_iff :
    KeepsCommas (quote string ++ text) ↔ StringKeepsCommas string ∧ KeepsCommas text := by
  have shape : quote string ++ text = '"' :: (string.flatMap escapeChar ++ '"' :: text) := by
    simp [quote]
  rw [shape, KeepsCommas, keepsCommas_quoted_iff]
  simp

end Commas

section Dump

variable {library : JsonLibrary}

/-- Doubles are written in characters of numbers, and in one at least. -/
structure JsonLibrary.WritesNumbers (library : JsonLibrary) : Prop where
  plain : ∀ value, ∀ c ∈ library.dumpFloat value,
    c.isAlphanum = true ∨ c ∈ ['+', '-', '.']
  visible : ∀ value, library.dumpFloat value ≠ []

/-- What begins with a character of a number or a word closes no bracket. -/
theorem not_closes_of_plain {front : List Char} (visible : front ≠ [])
    (plain : ∀ c ∈ front, c.isAlphanum = true ∨ c ∈ ['+', '-', '.']) (text : List Char) :
    ',' ∉ front ∧ ¬ Closes (front ++ text) := by
  constructor
  · intro comma
    exact absurd (plain ',' comma) (by decide)
  · obtain ⟨c, rest, rfl⟩ := List.exists_cons_of_ne_nil visible
    have first := plain c List.mem_cons_self
    rw [List.cons_append]
    apply not_closes_of_head
    · by_contra space
      have spaces : ∀ c ∈ [' ', '\t', '\n', '\x0b', '\x0c', '\r'],
          ¬ (c.isAlphanum = true ∨ c ∈ ['+', '-', '.']) :=
        List.forall_iff_forall_mem.1 (by decide)
      have among : c ∈ [' ', '\t', '\n', '\x0b', '\x0c', '\r'] := by
        simpa only [isSpace, Bool.not_eq_false, decide_eq_true_eq] using space
      exact spaces c among first
    · intro bracket
      have brackets : ∀ c ∈ ['\x7d', ']'], ¬ (c.isAlphanum = true ∨ c ∈ ['+', '-', '.']) :=
        List.forall_iff_forall_mem.1 (by decide)
      exact brackets c bracket first

/-- Whether the commas of a written value are kept depends on its strings, and what it
begins with closes no bracket. -/
def WritesCommas (written : List Char) (strings : List (List Char)) : Prop :=
  ∀ text, (KeepsCommas (written ++ text) ↔
      (∀ string ∈ strings, StringKeepsCommas string) ∧ KeepsCommas text) ∧
    ¬ Closes (written ++ text)

theorem writesCommas_of_plain {written : List Char} (visible : written ≠ [])
    (plain : ∀ c ∈ written, c.isAlphanum = true ∨ c ∈ ['+', '-', '.']) :
    WritesCommas written [] := by
  intro text
  obtain ⟨noComma, opens⟩ := not_closes_of_plain visible plain text
  exact ⟨by simp [keepsCommas_append_of_no_comma noComma], opens⟩

theorem writesCommas_quote (string : List Char) : WritesCommas (quote string) [string] := by
  intro text
  refine ⟨by simp [keepsCommas_quote_iff], ?_⟩
  exact not_closes_of_head (by decide) (by decide) _

/-- A value in its brackets, once the commas inside are seen to. -/
theorem writesCommas_bracketed {opening closing : Char} (bracket : opening ∈ ['\x7b', '['])
    (bracket' : closing ∈ ['\x7d', ']']) {entries strings : List (List Char)} (indent : Nat)
    (inside : WritesCommas (List.intercalate [','] entries) strings) :
    WritesCommas (bracketed none indent opening closing entries) strings := by
  have openings : ∀ c ∈ ['\x7b', '['], c ≠ ',' ∧ isSpace c = false ∧ c ∉ ['\x7d', ']'] :=
    List.forall_iff_forall_mem.1 (by decide)
  have closings : ∀ c ∈ ['\x7d', ']'], c ≠ ',' := List.forall_iff_forall_mem.1 (by decide)
  obtain ⟨noComma, solid, open'⟩ := openings opening bracket
  intro text
  have shape : bracketed none indent opening closing entries ++ text =
      opening :: (List.intercalate [','] entries ++ closing :: text) := by
    simp [bracketed, lineBreak]
  rw [shape]
  refine ⟨?_, not_closes_of_head solid open' _⟩
  rw [KeepsCommas, (inside (closing :: text)).1, KeepsCommas]
  simp [noComma, closings closing bracket']

/-- Entries with commas between them. -/
theorem writesCommas_intercalate_cons {first : List Char} {rest : List (List Char)}
    {firstStrings restStrings : List (List Char)}
    (here : WritesCommas first firstStrings)
    (later : rest ≠ [] → WritesCommas (List.intercalate [','] rest) restStrings)
    (noStrings : rest = [] → restStrings = []) :
    WritesCommas (List.intercalate [','] (first :: rest)) (firstStrings ++ restStrings) := by
  cases rest with
  | nil => simpa [noStrings] using here
  | cons second rest =>
      intro text
      have after := later (List.cons_ne_nil _ _) text
      have shape : List.intercalate [','] (first :: second :: rest) ++ text =
          first ++ (',' :: (List.intercalate [','] (second :: rest) ++ text)) := by
        rw [List.intercalate_cons_cons]
        simp
      rw [shape]
      refine ⟨?_, (here _).2⟩
      rw [(here _).1, KeepsCommas, after.1]
      simp only [List.mem_append, or_imp, forall_and, after.2, and_false, not_false_eq_true,
        true_and, and_assoc]

theorem isAlphanum_of_mem_toDigits {c : Char} {value : Nat}
    (member : c ∈ Nat.toDigits 10 value) : c.isAlphanum = true := by
  have digit := Nat.isDigit_of_mem_toDigits (by decide) (by decide) member
  simp [Char.isAlphanum, digit]

theorem writesCommas_toDigits (value : Nat) : WritesCommas (Nat.toDigits 10 value) [] :=
  writesCommas_of_plain Nat.toDigits_ne_nil fun _ member =>
    .inl (isAlphanum_of_mem_toDigits member)

theorem writesCommas_empty {word : List Char} (empty : word ∈ ["[]".toList, "\x7b\x7d".toList]) :
    WritesCommas word [] := by
  have openings : ∀ c ∈ ['[', '\x7b'], isSpace c = false ∧ c ∉ ['\x7d', ']'] :=
    List.forall_iff_forall_mem.1 (by decide)
  obtain ⟨c, opening, d, noComma, shape⟩ :
      ∃ c ∈ ['[', '\x7b'], ∃ d, ',' ∉ [c, d] ∧ word = [c, d] := by
    rcases List.mem_pair.1 empty with rfl | rfl
    · exact ⟨'[', by decide, ']', by decide, rfl⟩
    · exact ⟨'\x7b', by decide, '\x7d', by decide, rfl⟩
  obtain ⟨solid, open'⟩ := openings c opening
  subst shape
  intro text
  constructor
  · rw [keepsCommas_append_of_no_comma noComma]
    simp
  · exact not_closes_of_head solid open' _

theorem writesCommas_member (key : String) {written : List Char} {strings : List (List Char)}
    (value : WritesCommas written strings) :
    WritesCommas (quote (utf8Chars key) ++ keySeparator none ++ written)
      (utf8Chars key :: strings) := by
  intro text
  have shape : quote (utf8Chars key) ++ keySeparator none ++ written ++ text =
      quote (utf8Chars key) ++ ([':'] ++ (written ++ text)) := by
    simp [keySeparator]
  rw [shape]
  refine ⟨?_, (writesCommas_quote (utf8Chars key) _).2⟩
  rw [keepsCommas_quote_iff, keepsCommas_append_of_no_comma (by decide), (value text).1,
    List.forall_mem_cons, and_assoc]

mutual

theorem writesCommas_dumpAt (numbers : library.WritesNumbers) :
    ∀ (indent : Nat) (document : Json),
      WritesCommas (document.dumpAt library none indent) document.strings
  | _, .null =>
      @writesCommas_of_plain "null".toList (by decide)
        (List.forall_iff_forall_mem.1 (by decide))
  | _, .boolean true =>
      @writesCommas_of_plain "true".toList (by decide)
        (List.forall_iff_forall_mem.1 (by decide))
  | _, .boolean false =>
      @writesCommas_of_plain "false".toList (by decide)
        (List.forall_iff_forall_mem.1 (by decide))
  | indent, .numberInteger value => by
      rw [Json.dumpAt]
      split
      · apply writesCommas_of_plain (List.cons_ne_nil _ _)
        intro c member
        rcases List.mem_cons.mp member with rfl | digit
        · decide
        · exact .inl (isAlphanum_of_mem_toDigits digit)
      · exact writesCommas_toDigits _
  | _, .numberUnsigned value => writesCommas_toDigits value.toNat
  | _, .numberFloat value => writesCommas_of_plain (numbers.visible value) (numbers.plain value)
  | _, .string text => writesCommas_quote (utf8Chars text)
  | _, .array [] => @writesCommas_empty "[]".toList (by decide)
  | indent, .array (first :: rest) => by
      rw [Json.dumpAt, Json.strings]
      exact writesCommas_bracketed (by decide) (by decide) indent
        (writesCommas_dumpElements numbers _ (first :: rest) (List.cons_ne_nil _ _))
  | _, .object [] => @writesCommas_empty "\x7b\x7d".toList (by decide)
  | indent, .object (first :: rest) => by
      rw [Json.dumpAt, Json.strings]
      exact writesCommas_bracketed (by decide) (by decide) indent
        (writesCommas_dumpMembers numbers _ (first :: rest) (List.cons_ne_nil _ _))

theorem writesCommas_dumpElements (numbers : library.WritesNumbers) (indent : Nat) :
    ∀ elements : List Json, elements ≠ [] →
      WritesCommas (List.intercalate [','] (Json.dumpElements library none indent elements))
        (Json.stringsOfElements elements)
  | [], nonempty => absurd rfl nonempty
  | first :: rest, _ => by
      rw [Json.dumpElements, Json.stringsOfElements]
      apply writesCommas_intercalate_cons (writesCommas_dumpAt numbers indent first)
      · intro more
        apply writesCommas_dumpElements numbers indent rest
        rintro rfl
        exact more rfl
      · intro last
        cases rest with
        | nil => rfl
        | cons second rest => simp [Json.dumpElements] at last

theorem writesCommas_dumpMembers (numbers : library.WritesNumbers) (indent : Nat) :
    ∀ members : List (String × Json), members ≠ [] →
      WritesCommas (List.intercalate [','] (Json.dumpMembers library none indent members))
        (Json.stringsOfMembers members)
  | [], nonempty => absurd rfl nonempty
  | (key, value) :: rest, _ => by
      rw [Json.dumpMembers, Json.stringsOfMembers, ← List.cons_append]
      apply writesCommas_intercalate_cons
        (writesCommas_member key (writesCommas_dumpAt numbers indent value))
      · intro more
        apply writesCommas_dumpMembers numbers indent rest
        rintro rfl
        exact more rfl
      · intro last
        cases rest with
        | nil => rfl
        | cons second rest => simp [Json.dumpMembers] at last

end

theorem keepsCommas_dump_iff (numbers : library.WritesNumbers) (document : Json) :
    KeepsCommas (document.dump library none) ↔
      ∀ string ∈ document.strings, StringKeepsCommas string := by
  have written := (writesCommas_dumpAt numbers 0 document []).1
  rw [List.append_nil] at written
  rw [Json.dump, written]
  exact and_iff_left trivial

theorem renders_dump_of_writesNumbers (numbers : library.WritesNumbers) (document : Json) :
    Renders (document.dump library none) document.strings := by
  have writing : (JsonLibrary.writing library.dumpFloat).Lawful :=
    ⟨numbers.plain, nofun, fun _ parsed => by cases parsed⟩
  have sameText := Json.dump_congr none (show library.dumpFloat =
    (JsonLibrary.writing library.dumpFloat).dumpFloat from rfl) document
  rw [sameText]
  exact renders_dump none writing document

/-- The parser is handed the text that was written exactly when no string opens a comment
or has a comma that looks like a trailing one. -/
theorem tolerantText_dump_iff (numbers : library.WritesNumbers) {document : Json}
    (short : (document.dump library none).length < 2 ^ 31) :
    tolerantText (document.dump library none) = document.dump library none ↔
      ∀ string ∈ document.strings, ¬ OpensComment string ∧ StringKeepsCommas string := by
  have opensIff := (renders_dump_of_writesNumbers numbers document).opensComment_iff
  have keepsIff := keepsCommas_dump_iff numbers document
  by_cases opens : OpensComment (document.dump library none)
  · obtain ⟨string, listed, opensString⟩ := opensIff.mp opens
    refine iff_of_false (fun same => ?_) (fun keeps => (keeps string listed).1 opensString)
    have fewer := count_removeCommentsFrom_lt opens
    have counts := congrArg (List.count '/') same
    rw [tolerantText, count_slash_dropTrailingCommas, removeComments, intLength_of_lt short,
      Int.toNat_natCast, List.take_length] at counts
    omega
  · rw [tolerantText, removeComments_of_not_opensComment short opens, dropTrailingCommas_eq_iff,
      keepsIff]
    have unopened : ∀ string ∈ document.strings, ¬ OpensComment string :=
      fun string listed opensString => opens (opensIff.mpr ⟨string, listed, opensString⟩)
    exact ⟨fun keeps string listed => ⟨unopened string listed, keeps string listed⟩,
      fun keeps string listed => (keeps string listed).2⟩

end Dump

namespace CLocalConfigFile

variable {library : JsonLibrary} {config start : CLocalConfigFile}

/-- A call keeps the name of the file, and that the last one read was parsed. -/
theorem settingStep_kept {next : CLocalConfigFile} {call : SettingCall}
    (stepped : settingStep library config call = some next) :
    next.fileURL = config.fileURL ∧ next.parseFailed = config.parseFailed := by
  cases call with
  | fieldCall call =>
      obtain ⟨document, -, rfl⟩ := step_eq_some stepped
      exact ⟨rfl, rfl⟩
  | modifyNumericField field newValue =>
      obtain ⟨document, -, rfl⟩ := assigned_eq_some stepped
      exact ⟨rfl, rfl⟩
  | modifyDoubleField field newValue =>
      obtain ⟨document, -, rfl⟩ := assigned_eq_some stepped
      exact ⟨rfl, rfl⟩
  | clearFile =>
      rw [← Option.some.inj stepped]
      exact ⟨rfl, rfl⟩
  | apply =>
      rw [← Option.some.inj stepped]
      unfold CLocalConfigFile.apply
      split
      · exact ⟨rfl, rfl⟩
      · exact ⟨rfl, rfl⟩

/-- A process that opens the file after `apply` parses what was written. -/
theorem initConfigFile_fresh_apply (sound : config.parseFailed = false)
    (same : tolerantText (config.configJSON.dump library none) =
      config.configJSON.dump library none)
    {document : Json}
    (parsed : library.parse (config.configJSON.dump library none) = some document) :
    ∃ reopened,
      initConfigFile library config.fileURL (fresh (config.apply library).files) =
        some reopened ∧ reopened.configJSON = document := by
  have written : (config.apply library).files config.fileURL =
      some (config.configJSON.dump library none) := by
    rw [CLocalConfigFile.apply, sound, if_neg Bool.false_ne_true]
    exact Function.update_self _ _ _
  have read : (readFile library config.fileURL
      { fresh (config.apply library).files with
        configJSON := .null, fileURL := config.fileURL }).fileContents =
          config.configJSON.dump library none := by
    rw [readFile]
    simp only [fresh, written]
    simp [insertContents]
  refine ⟨{ readFile library config.fileURL
      { fresh (config.apply library).files with
        configJSON := .null, fileURL := config.fileURL } with
      configJSON := document, parseFailed := false }, ?_, rfl⟩
  unfold initConfigFile parseData
  simp only
  rw [read, same, parsed]
  rfl

/-- After a restart every name that was touched reads as it was set last. -/
theorem restart_of_run {calls : List SettingCall} (numbers : library.WritesNumbers)
    (object : start.HoldsObject) (sound : start.parseFailed = false)
    (run : Run (settingStep library) start calls config)
    (short : (config.configJSON.dump library none).length < 2 ^ 31)
    (keeps : ∀ string ∈ config.configJSON.strings,
      ¬ OpensComment string ∧ StringKeepsCommas string)
    (finite : config.configJSON.allFinite = true)
    (rereads : library.parse (config.configJSON.dump library none) =
      some config.configJSON.reread) :
    ∃ reopened,
      initConfigFile library config.fileURL (fresh (config.apply library).files) =
        some reopened ∧
      ∀ (field : String) (setting : Option Setting),
        lastSet (cString field) calls = some setting →
        reopened.getStringField field = Setting.asString setting ∧
          (∀ beyondInt, reopened.getNumericField beyondInt field =
            Setting.asNumeric beyondInt setting) ∧
          reopened.getDoubleField field = Setting.asDouble setting := by
  have kept : config.parseFailed = start.parseFailed :=
    run.invariant (fun config => config.parseFailed = start.parseFailed) rfl
      fun _ stepped same => (settingStep_kept stepped).2.trans same
  have same := (tolerantText_dump_iff numbers short).mpr keeps
  obtain ⟨reopened, opens, document⟩ :=
    initConfigFile_fresh_apply (kept.trans sound) same rereads
  refine ⟨reopened, opens, fun field setting last => ?_⟩
  have member := (member?_of_run object run).2 (cString field)
  rw [last] at member
  apply getters_of_member?
  rw [document, Json.member?_reread, member]
  match setting, member with
  | none, _ | some (.text _), _ | some (.numeric _), _ => rfl
  | some (.double value), member =>
      have finiteValue : value.isFinite = true := Json.allFinite_of_member? finite member
      simp [Setting.toJson, Json.reread, finiteValue]

/-- A text with a comma and a number. -/
def greeting : Json :=
  .object [("host", .string "a, b"), ("port", .numberUnsigned 5)]

theorem greeting_wellFormed : greeting.reread.WellFormed := by
  have same : greeting.reread = greeting := rfl
  rw [same, greeting]
  refine .object _ (by decide +kernel) ?_
  simp only [List.forall_mem_cons]
  exact ⟨.string _, .numberUnsigned _, by simp⟩

/-- The library on the two texts of a file that was not there at first. -/
def greetingLibrary : JsonLibrary :=
  { rereadLibrary greeting greeting_wellFormed with
    parse := fun text =>
      if text = "null".toList then some .null
      else (rereadLibrary greeting greeting_wellFormed).parse text
    parse_wellFormed := by
      intro text document parsed
      split at parsed
      · exact Option.some.inj parsed ▸ .null
      · exact (rereadLibrary greeting greeting_wellFormed).parse_wellFormed parsed }

theorem greetingLibrary_rereads :
    greetingLibrary.parse (greeting.dump greetingLibrary none) = some greeting.reread := by
  have digits : greetingLibrary.dumpFloat =
      (rereadLibrary greeting greeting_wellFormed).dumpFloat := rfl
  have noNull : greeting.dump (rereadLibrary greeting greeting_wellFormed) none ≠
      "null".toList := by
    decide +kernel
  rw [Json.dump_congr none digits, ← rereadLibrary_rereads greeting_wellFormed]
  dsimp only [greetingLibrary]
  rw [if_neg noNull]

theorem greetingLibrary_writesNumbers : greetingLibrary.WritesNumbers := by
  have half : "0.5".toList ≠ [] ∧
      ∀ c ∈ "0.5".toList, c.isAlphanum = true ∨ c ∈ ['+', '-', '.'] :=
    ⟨by decide, List.forall_iff_forall_mem.1 (by decide)⟩
  have none : "null".toList ≠ [] ∧
      ∀ c ∈ "null".toList, c.isAlphanum = true ∨ c ∈ ['+', '-', '.'] :=
    ⟨by decide, List.forall_iff_forall_mem.1 (by decide)⟩
  have digits (value : Double) : greetingLibrary.dumpFloat value =
      if value.isFinite then "0.5".toList else "null".toList :=
    rfl
  constructor
  · intro value c member
    rw [digits] at member
    split at member
    · exact half.2 c member
    · exact none.2 c member
  · intro value
    rw [digits]
    split
    · exact half.1
    · exact none.1

def greetingCalls : List SettingCall :=
  [ .fieldCall (.addStringField "host" "a, b"), .modifyNumericField "port" 5 ]

/-- The first start finds no file, the second one what the first has written. -/
theorem restart_of_run_greeting :
    ∃ opened config reopened : CLocalConfigFile,
      initConfigFile greetingLibrary "local.json" (fresh fun _ => none) = some opened ∧
      Run (settingStep greetingLibrary) opened greetingCalls config ∧
      initConfigFile greetingLibrary config.fileURL
        (fresh (config.apply greetingLibrary).files) = some reopened ∧
      reopened.getStringField "host" = .ok "a, b" ∧
      (∀ beyondInt, reopened.getNumericField beyondInt "port" = .ok 5) := by
  let opened : CLocalConfigFile :=
    { fresh (Function.update (fun _ => none) "local.json" (some "null".toList)) with
      fileURL := "local.json"
      fileContents := "null".toList }
  have initialised :
      initConfigFile greetingLibrary "local.json" (fresh fun _ => none) = some opened := rfl
  have run : Run (settingStep greetingLibrary) opened greetingCalls
      { opened with configJSON := greeting } := Run.of_foldlM rfl
  have strings : ∀ string ∈ greeting.strings,
      ¬ OpensComment string ∧ StringKeepsCommas string := by
    have shape : greeting.strings = ["host".toList, "a, b".toList, "port".toList] := by
      decide +kernel
    simp [shape, OpensComment, StringKeepsCommas]
  obtain ⟨reopened, opens, reads⟩ := restart_of_run greetingLibrary_writesNumbers (.inl rfl) rfl
    run (by decide +kernel) strings rfl greetingLibrary_rereads
  exact ⟨opened, _, reopened, initialised, run, opens,
    (reads "host" (some (.text "a, b")) rfl).1, (reads "port" (some (.numeric 5)) rfl).2.1⟩

end CLocalConfigFile

end DroneEngage
