import DroneEngage.ConfigRoundTrip
import DroneEngage.LocalConfigFile
import Mathlib.Data.List.TakeWhile

/-!
# Reading the local configuration back

After `apply` the next `InitConfigFile` of the same object parses the old text
with the new one behind it.  A complete document leaves room for nothing but
white space, so the settings come back only if the reader sees nothing of the
new text, and then they are the old ones.
-/

namespace DroneEngage

open CommentRemoval EventRuns

def isBlank (c : Char) : Bool :=
  c ∈ [' ', '\t', '\n', '\r']

/-- How the parser reads what stands around a document. -/
structure JsonLibrary.Grammar (library : JsonLibrary) : Prop where
  /-- a null character ends the text -/
  nullEnds : ∀ text, library.parse text = library.parse (text.takeWhile (· ≠ '\x00'))
  /-- white space at the end does not matter -/
  blankEnds : ∀ text blank, blank.all isBlank →
    library.parse (text ++ blank) = library.parse text
  /-- no document ends with a comma or a slash -/
  looseEnds : ∀ {front blank c}, '\x00' ∉ front → c ∈ [',', '/'] → blank.all isSpace →
    library.parse (front ++ c :: blank) = none
  /-- only white space follows a complete document that is no number -/
  selfDelimiting : ∀ {text more document other}, '\x00' ∉ text ++ more →
    library.parse text = some document → document.isNumber = false →
    library.parse (text ++ more) = some other → more.all isBlank

section Cleaning

/-- The text ends with a comma or a slash, with white space behind it. -/
def EndsLoose (text : List Char) : Prop :=
  ∃ front c blank, text = front ++ c :: blank ∧ c ∈ [',', '/'] ∧ blank.all isSpace

/-- What comes behind a text does not change what comment removal makes of it,
but for a slash at its end. -/
theorem removeCommentsFrom_append (sCmt mCmt : Bool) (text more : List Char) :
    ∃ front tail rest,
      removeCommentsFrom sCmt mCmt text = front ++ tail ∧
      removeCommentsFrom sCmt mCmt (text ++ more) = front ++ rest ∧
      (tail = [] ∨ tail = ['/']) := by
  fun_induction removeCommentsFrom sCmt mCmt text with
  | case1 sCmt mCmt => exact ⟨[], [], _, rfl, rfl, .inl rfl⟩
  | case2 sCmt mCmt c inComment => exact ⟨[], [], _, rfl, rfl, .inl rfl⟩
  | case3 sCmt mCmt c inCode =>
      by_cases slash : c = '/'
      · exact ⟨[], ['/'], _, by rw [slash]; rfl, rfl, .inr rfl⟩
      · refine ⟨[c], [], removeCommentsFrom false false more, rfl, ?_, .inl rfl⟩
        simp only [Bool.or_eq_true, not_or, Bool.not_eq_true] at inCode
        obtain ⟨rfl, rfl⟩ := inCode
        rw [List.singleton_append, removeCommentsFrom_code, if_neg (fun opens => slash opens.1),
          if_neg (fun opens => slash opens.1), List.singleton_append]
  | case4 sCmt mCmt c next rest newline ih =>
      obtain ⟨front, tail, after, whole, longer, loose⟩ := ih
      refine ⟨front, tail, after, whole, ?_, loose⟩
      rw [List.cons_append, List.cons_append, removeCommentsFrom, if_pos newline]
      exact longer
  | case5 sCmt mCmt c next rest notNewline closes ih =>
      obtain ⟨front, tail, after, whole, longer, loose⟩ := ih
      refine ⟨front, tail, after, whole, ?_, loose⟩
      rw [List.cons_append, List.cons_append, removeCommentsFrom, if_neg notNewline,
        if_pos closes]
      exact longer
  | case6 sCmt mCmt c next rest notNewline notCloses inComment ih =>
      obtain ⟨front, tail, after, whole, longer, loose⟩ := ih
      refine ⟨front, tail, after, whole, ?_, loose⟩
      rw [List.cons_append, List.cons_append, removeCommentsFrom, if_neg notNewline,
        if_neg notCloses, if_pos inComment]
      exact longer
  | case7 sCmt mCmt c next rest notNewline notCloses inCode line ih =>
      obtain ⟨front, tail, after, whole, longer, loose⟩ := ih
      refine ⟨front, tail, after, whole, ?_, loose⟩
      rw [List.cons_append, List.cons_append, removeCommentsFrom, if_neg notNewline,
        if_neg notCloses, if_neg inCode, if_pos line]
      exact longer
  | case8 sCmt mCmt c next rest notNewline notCloses inCode notLine block ih =>
      obtain ⟨front, tail, after, whole, longer, loose⟩ := ih
      refine ⟨front, tail, after, whole, ?_, loose⟩
      rw [List.cons_append, List.cons_append, removeCommentsFrom, if_neg notNewline,
        if_neg notCloses, if_neg inCode, if_neg notLine, if_pos block]
      exact longer
  | case9 sCmt mCmt c next rest notNewline notCloses inCode notLine notBlock ih =>
      obtain ⟨front, tail, after, whole, longer, loose⟩ := ih
      refine ⟨c :: front, tail, after, by rw [whole, List.cons_append], ?_, loose⟩
      rw [List.cons_append, List.cons_append, removeCommentsFrom, if_neg notNewline,
        if_neg notCloses, if_neg inCode, if_neg notLine, if_neg notBlock, List.cons_append]
      exact congrArg (c :: ·) longer

theorem dropTrailingCommas_of_no_comma {text : List Char} (noComma : ',' ∉ text) :
    dropTrailingCommas text = text := by
  induction text with
  | nil => rfl
  | cons c rest ih =>
      rw [List.mem_cons, not_or] at noComma
      rw [dropTrailingCommas, if_neg fun dropped => noComma.1 dropped.1.symm, ih noComma.2]

theorem not_mem_of_all_isSpace {blank : List Char} (spaces : blank.all isSpace) {c : Char}
    (notSpace : isSpace c = false) : c ∉ blank := by
  intro member
  rw [List.all_eq_true.mp spaces c member] at notSpace
  cases notSpace

theorem dropTrailingCommas_blank (c : Char) {blank : List Char}
    (spaces : blank.all isSpace) : dropTrailingCommas (c :: blank) = c :: blank := by
  have noComma : ',' ∉ blank := not_mem_of_all_isSpace spaces (by decide)
  have empty : blank.dropWhile isSpace = [] :=
    List.dropWhile_eq_nil_iff.mpr (List.all_eq_true.mp spaces)
  rw [dropTrailingCommas, if_neg (by simp [empty]), dropTrailingCommas_of_no_comma noComma]

/-- A slash at the end is no bracket, so the filter keeps it and what is before. -/
theorem dropTrailingCommas_slash (text : List Char) :
    dropTrailingCommas (text ++ ['/']) = dropTrailingCommas text ++ ['/'] := by
  induction text with
  | nil => rfl
  | cons c text ih =>
      have sameBracket : ((text ++ ['/']).dropWhile isSpace).head? ∈
            [some '\x7d', some ']'] ↔
          (text.dropWhile isSpace).head? ∈ [some '\x7d', some ']'] := by
        rw [List.dropWhile_append]
        cases text.dropWhile isSpace with
        | nil => exact iff_of_false (by decide) (by decide)
        | cons d rest => exact Iff.rfl
      simp only [List.cons_append, dropTrailingCommas, sameBracket, ih]
      split
      · rfl
      · rfl

/-- The same for the filter of trailing commas, but for a comma with white space
behind it. -/
theorem dropTrailingCommas_append (text : List Char) :
    ∃ front tail, dropTrailingCommas text = front ++ tail ∧
      (tail = [] ∨ ∃ blank, tail = ',' :: blank ∧ blank.all isSpace) ∧
      ∀ more, ∃ rest, dropTrailingCommas (text ++ more) = front ++ rest := by
  induction text with
  | nil => exact ⟨[], [], rfl, .inl rfl, fun more => ⟨_, rfl⟩⟩
  | cons c text ih =>
      obtain ⟨front, tail, whole, loose, longer⟩ := ih
      by_cases spaces : c = ',' ∧ text.all isSpace
      · obtain ⟨rfl, spaces⟩ := spaces
        exact ⟨[], ',' :: text, dropTrailingCommas_blank ',' spaces, .inr ⟨text, rfl, spaces⟩,
          fun more => ⟨_, rfl⟩⟩
      · have sameBracket (more : List Char) :
            (c = ',' ∧ ((text ++ more).dropWhile isSpace).head? ∈ [some '\x7d', some ']']) ↔
              (c = ',' ∧ (text.dropWhile isSpace).head? ∈ [some '\x7d', some ']']) := by
          apply and_congr_right
          intro comma
          have visible : text.dropWhile isSpace ≠ [] := fun empty =>
            spaces ⟨comma, List.all_eq_true.mpr (List.dropWhile_eq_nil_iff.mp empty)⟩
          rw [List.dropWhile_append, if_neg (by simpa using visible),
            List.head?_append_of_ne_nil _ visible]
        by_cases dropped :
            c = ',' ∧ (text.dropWhile isSpace).head? ∈ [some '\x7d', some ']']
        · refine ⟨front, tail, ?_, loose, fun more => ?_⟩
          · rw [dropTrailingCommas, if_pos dropped]
            exact whole
          · rw [List.cons_append, dropTrailingCommas, if_pos ((sameBracket more).mpr dropped)]
            exact longer more
        · refine ⟨c :: front, tail, ?_, loose, fun more => ?_⟩
          · rw [dropTrailingCommas, if_neg dropped, whole, List.cons_append]
          · obtain ⟨rest, longer⟩ := longer more
            rw [List.cons_append, dropTrailingCommas,
              if_neg (mt (sameBracket more).mp dropped), longer]
            exact ⟨rest, rfl⟩

/-- What the parser is handed of a text, before the length is looked at. -/
def cleanText (text : List Char) : List Char :=
  dropTrailingCommas (removeCommentsFrom false false text)

/-- A text and a longer one are handed to the parser with the same front, and
what the longer one changes is a loose end. -/
theorem cleanText_append (text more : List Char) :
    ∃ front tail rest, cleanText text = front ++ tail ∧
      cleanText (text ++ more) = front ++ rest ∧
      (tail = [] ∨ '\x00' ∉ tail ∧ EndsLoose (cleanText text)) := by
  obtain ⟨code, slash, after, whole, longer, loose⟩ :=
    removeCommentsFrom_append false false text more
  unfold cleanText
  rw [whole, longer]
  obtain ⟨front, comma, filtered, looseComma, filteredLonger⟩ :=
    dropTrailingCommas_append code
  obtain ⟨rest, filteredAfter⟩ := filteredLonger after
  have noNull : '\x00' ∉ comma := by
    rcases looseComma with rfl | ⟨blank, rfl, spaces⟩
    · exact List.not_mem_nil
    · rw [List.mem_cons, not_or]
      exact ⟨by decide, not_mem_of_all_isSpace spaces (by decide)⟩
  rcases loose with rfl | rfl
  · rw [List.append_nil]
    refine ⟨front, comma, rest, filtered, filteredAfter, ?_⟩
    rcases looseComma with rfl | ⟨blank, rfl, spaces⟩
    · exact .inl rfl
    · exact .inr ⟨noNull, front, ',', blank, filtered, by decide, spaces⟩
  · rw [dropTrailingCommas_slash, filtered]
    refine ⟨front, comma ++ ['/'], rest, List.append_assoc _ _ _, filteredAfter, .inr ⟨?_, ?_⟩⟩
    · rw [List.mem_append, not_or]
      exact ⟨noNull, by decide⟩
    · exact ⟨front ++ comma, '/', [], rfl, by decide, rfl⟩

end Cleaning

namespace CLocalConfigFile

/-- `apply` and then `InitConfigFile` on the same path bring `m_ConfigJSON` back. -/
def Persists (library : JsonLibrary) (config : CLocalConfigFile) : Prop :=
  ∃ reopened, initConfigFile library config.fileURL (config.apply library) = some reopened ∧
    reopened.configJSON = config.configJSON

/-- The text that `InitConfigFile` parses after `apply`. -/
def rereadText (library : JsonLibrary) (config : CLocalConfigFile) : List Char :=
  if config.contentsFail then config.fileContents
  else config.fileContents ++ config.configJSON.dump library none

/-- What the parser looks at of a text. -/
def visibleText (text : List Char) : List Char :=
  (tolerantText text).takeWhile (· ≠ '\x00')

/-- The parser is given the same, but for white space at the end. -/
def ReadAlike (first second : List Char) : Prop :=
  ∃ blank : List Char, blank.all isBlank ∧
    (visibleText second = visibleText first ++ blank ∨
      visibleText first = visibleText second ++ blank)

section Reading

variable {library : JsonLibrary}

/-- Behind a complete document the parser finds only white space. -/
theorem cleanText_append_of_parse (grammar : library.Grammar) {text more : List Char}
    {document other : Json} (parsed : library.parse (cleanText text) = some document)
    (notNumber : document.isNumber = false)
    (parsedMore : library.parse (cleanText (text ++ more)) = some other) :
    ∃ blank : List Char, blank.all isBlank ∧
      (cleanText (text ++ more)).takeWhile (· ≠ '\x00') =
        (cleanText text).takeWhile (· ≠ '\x00') ++ blank := by
  obtain ⟨front, tail, rest, whole, longer, loose⟩ := cleanText_append text more
  rw [grammar.nullEnds] at parsedMore
  rw [longer] at parsedMore ⊢
  by_cases null : '\x00' ∈ front
  · have cut (behind : List Char) :
        (front ++ behind).takeWhile (· ≠ '\x00') = front.takeWhile (· ≠ '\x00') := by
      rw [List.takeWhile_append, if_neg]
      intro complete
      have kept := List.takeWhile_eq_self_iff.mp (List.takeWhile_prefix _ |>.eq_of_length complete)
      simpa using kept _ null
    refine ⟨[], rfl, ?_⟩
    rw [whole, cut, cut, List.append_nil]
  · have kept (behind : List Char) : (front ++ behind).takeWhile (· ≠ '\x00') =
        front ++ behind.takeWhile (· ≠ '\x00') :=
      List.takeWhile_append_of_pos fun c member => by
        simpa using fun same : c = '\x00' => null (same ▸ member)
    rcases loose with rfl | ⟨tailNoNull, looseEnd⟩
    · rw [List.append_nil] at whole
      rw [whole] at parsed ⊢
      have same := kept []
      rw [List.append_nil, List.takeWhile_nil, List.append_nil] at same
      rw [kept] at parsedMore ⊢
      rw [same]
      refine ⟨_, ?_, rfl⟩
      refine grammar.selfDelimiting ?_ parsed notNumber parsedMore
      rw [List.mem_append, not_or]
      exact ⟨null, fun member => by simpa using List.mem_takeWhile_imp member⟩
    · obtain ⟨before, c, blank, ends, special, spaces⟩ := looseEnd
      have noNull : '\x00' ∉ cleanText text := by
        rw [whole, List.mem_append, not_or]
        exact ⟨null, tailNoNull⟩
      rw [ends] at parsed noNull
      rw [grammar.looseEnds (fun member => noNull (List.mem_append_left _ member)) special
        spaces] at parsed
      cases parsed

/-- Two texts of which one begins the other are both parsed only if they read
alike. -/
theorem readAlike_of_parse (grammar : library.Grammar) {text more : List Char}
    {document other : Json} (parsed : library.parse (tolerantText text) = some document)
    (parsedMore : library.parse (tolerantText (text ++ more)) = some other)
    (notNumber : document.isNumber = false) (otherNotNumber : other.isNumber = false) :
    ReadAlike text (text ++ more) := by
  unfold ReadAlike visibleText
  have first : text.take (intLength text).toNat <+: text ++ more :=
    (List.take_prefix _ _).trans (List.prefix_append _ _)
  have second : (text ++ more).take (intLength (text ++ more)).toNat <+: text ++ more :=
    List.take_prefix _ _
  have asClean (source : List Char) :
      tolerantText source = cleanText (source.take (intLength source).toNat) := rfl
  rw [asClean] at parsed parsedMore
  rw [asClean, asClean]
  rcases List.prefix_or_prefix_of_prefix first second with ⟨rest, longer⟩ | ⟨rest, longer⟩
  · rw [← longer] at parsedMore ⊢
    obtain ⟨blank, white, same⟩ :=
      cleanText_append_of_parse grammar parsed notNumber parsedMore
    exact ⟨blank, white, .inl same⟩
  · rw [← longer] at parsed ⊢
    obtain ⟨blank, white, same⟩ :=
      cleanText_append_of_parse grammar parsedMore otherNotNumber parsed
    exact ⟨blank, white, .inr same⟩

theorem parse_visibleText (grammar : library.Grammar) (text : List Char) :
    library.parse (tolerantText text) = library.parse (visibleText text) :=
  grammar.nullEnds _

theorem parse_eq_of_readAlike (grammar : library.Grammar) {first second : List Char}
    (alike : ReadAlike first second) :
    library.parse (tolerantText first) = library.parse (tolerantText second) := by
  rw [parse_visibleText grammar, parse_visibleText grammar]
  obtain ⟨blank, white, same | same⟩ := alike
  · rw [same, grammar.blankEnds _ _ white]
  · rw [same, grammar.blankEnds _ _ white]

end Reading

section Calls

variable {library : JsonLibrary} {before opened config next : CLocalConfigFile}

theorem insertContents_eq (config : CLocalConfigFile) (contents : List Char) :
    ∃ fail, config.insertContents contents =
      { config with
        fileContents :=
          if config.contentsFail then config.fileContents
          else config.fileContents ++ contents
        contentsFail := fail } := by
  unfold insertContents
  split
  · exact ⟨config.contentsFail, rfl⟩
  · exact ⟨_, rfl⟩

/-- What `InitConfigFile` has parsed is the string stream as it is now. -/
theorem initConfigFile_eq_some {fileURL : String}
    (initialised : initConfigFile library fileURL before = some opened) :
    opened.parseFailed = false ∧
      library.parse (tolerantText opened.fileContents) = some opened.configJSON := by
  obtain ⟨document, parsed, rfl⟩ := Option.map_eq_some_iff.mp initialised
  exact ⟨rfl, parsed⟩

theorem initConfigFile_apply (sound : config.parseFailed = false) :
    (initConfigFile library config.fileURL (config.apply library)).map configJSON =
      library.parse (tolerantText (config.rereadText library)) := by
  have written : (config.apply library).files config.fileURL =
      some (config.configJSON.dump library none) := by
    simp [apply, sound, writeFile]
  obtain ⟨fail, read⟩ := insertContents_eq
    { config.apply library with configJSON := .null, fileURL := config.fileURL }
    (config.configJSON.dump library none)
  have applied : config.apply library = config.writeFile library config.fileURL := by
    simp [apply, sound]
  rw [initConfigFile, readFile]
  simp only [written, read, parseData, Option.map_map, Function.comp_def, Option.map_id']
  rw [applied]
  rfl

/-- The calls change `m_ConfigJSON` only. -/
theorem step_eq_some {call : FieldCall} (stepped : step config call = some next) :
    ∃ document, call.run config.configJSON = .ok document ∧
      next = { config with configJSON := document } := by
  unfold step at stepped
  cases ran : call.run config.configJSON with
  | error exception => simp [ran] at stepped
  | ok document =>
      simp only [ran, Option.some.injEq] at stepped
      exact ⟨document, rfl, stepped.symm⟩

/-- No call makes a number of a document that is none. -/
theorem FieldCall.run_isNumber {call : FieldCall} {document result : Json}
    (ran : call.run document = .ok result) (notNumber : document.isNumber = false) :
    result.isNumber = false := by
  have assigned {field : String} {value : Json}
      (assigned : assignField field value document = .ok result) :
      result.isNumber = false := by
    obtain ⟨-, rfl⟩ := Json.assignMember_eq_ok.mp assigned
    rfl
  cases call with
  | addStringField field value => exact assigned ran
  | modifyStringField field newValue =>
      simp only [FieldCall.run, CLocalConfigFile.modifyStringField, ite_self] at ran
      exact assigned ran
  | addNumericField field value => exact assigned ran
  | addDoubleField field value => exact assigned ran
  | removeFieldByName fieldName =>
      obtain rfl := Except.ok.inj ran
      unfold CLocalConfigFile.removeFieldByName Json.eraseMember
      split
      · split
        · rfl
        · exact notNumber
      · exact notNumber

/-- What a run of calls leaves as it was. -/
theorem run_eq {calls : List FieldCall} (run : Run step opened calls config) :
    (∃ document, config = { opened with configJSON := document }) ∧
      (opened.configJSON.isNumber = false → config.configJSON.isNumber = false) := by
  refine run.invariant (fun config =>
    (∃ document, config = { opened with configJSON := document }) ∧
      (opened.configJSON.isNumber = false → config.configJSON.isNumber = false))
    ⟨⟨opened.configJSON, rfl⟩, id⟩ ?_
  rintro _ state call next _ stepped ⟨⟨document, rfl⟩, notNumber⟩
  obtain ⟨result, ran, rfl⟩ := step_eq_some stepped
  exact ⟨⟨result, rfl⟩, fun first => FieldCall.run_isNumber ran (notNumber first)⟩

end Calls

/-- The settings come back exactly when the calls leave them as they were and
what `apply` writes is not seen by the parser: the old text ends in a comment
that swallows it, or holds a null character, or the string stream takes no more.
A file with a bare number comes back when the text read then is that number. -/
theorem localConfig_persists_iff (library : JsonLibrary) (grammar : library.Grammar)
    {before opened config : CLocalConfigFile} {fileURL : String}
    (initialised : initConfigFile library fileURL before = some opened)
    {calls : List FieldCall} (run : Run step opened calls config) :
    Persists library config ↔
      if opened.configJSON.isNumber then
        library.parse (tolerantText (config.rereadText library)) = some config.configJSON
      else
        config.configJSON = opened.configJSON ∧
          ReadAlike opened.fileContents (config.rereadText library) := by
  obtain ⟨sound, parsed⟩ := initConfigFile_eq_some initialised
  obtain ⟨⟨document, rfl⟩, notNumber⟩ := run_eq run
  have reread := @initConfigFile_apply library { opened with configJSON := document } sound
  have persists : Persists library { opened with configJSON := document } ↔
      library.parse (tolerantText
        (rereadText library { opened with configJSON := document })) = some document := by
    rw [← reread, Option.map_eq_some_iff]
    rfl
  rw [persists]
  split
  · rfl
  · rename_i isNot
    have first : opened.configJSON.isNumber = false := eq_false_of_ne_true isNot
    constructor
    · intro parsedAgain
      have alike : ReadAlike opened.fileContents
          (rereadText library { opened with configJSON := document }) := by
        unfold rereadText at parsedAgain ⊢
        split at parsedAgain
        · rename_i fails
          rw [if_pos fails]
          exact ⟨[], rfl, .inl (List.append_nil _).symm⟩
        · rename_i takes
          rw [if_neg takes]
          exact readAlike_of_parse grammar parsed parsedAgain first (notNumber first)
      refine ⟨?_, alike⟩
      rw [← parse_eq_of_readAlike grammar alike, parsed] at parsedAgain
      exact (Option.some.inj parsedAgain).symm
    · rintro ⟨same, alike⟩
      rw [← parse_eq_of_readAlike grammar alike, parsed]
      exact congrArg some same.symm

section Example

/-- The library on the texts of one document, with white space behind it. -/
def spacedLibrary (document : Json) (wellFormed : document.WellFormed)
    (written : List Char) : JsonLibrary where
  parse := fun text =>
    let visible := text.takeWhile (· ≠ '\x00')
    if written <+: visible ∧ (visible.drop written.length).all isBlank then some document
    else none
  dumpFloat := fun _ => ['0', '.', '0']
  parse_wellFormed := by
    intro text found parsed
    obtain ⟨-, same⟩ := Option.ite_none_right_eq_some.mp parsed
    exact Option.some.inj same ▸ wellFormed

variable {document : Json} {wellFormed : document.WellFormed} {written : List Char}

theorem spacedLibrary_parse_iff {text : List Char} {found : Json} :
    (spacedLibrary document wellFormed written).parse text = some found ↔
      document = found ∧ ∃ blank : List Char, blank.all isBlank ∧
        text.takeWhile (· ≠ '\x00') = written ++ blank := by
  simp only [spacedLibrary, Option.ite_none_right_eq_some, Option.some.injEq]
  constructor
  · rintro ⟨⟨⟨blank, begins⟩, white⟩, same⟩
    rw [← begins, List.drop_left] at white
    exact ⟨same, blank, white, begins.symm⟩
  · rintro ⟨same, blank, white, visible⟩
    rw [visible, List.drop_left]
    exact ⟨⟨List.prefix_append _ _, white⟩, same⟩

theorem takeWhile_of_no_null {text : List Char} (noNull : '\x00' ∉ text) :
    text.takeWhile (· ≠ '\x00') = text :=
  List.takeWhile_eq_self_iff.mpr fun c member => by
    simpa using fun same : c = '\x00' => noNull (same ▸ member)

theorem not_mem_of_all_isBlank {blank : List Char} (white : blank.all isBlank) {c : Char}
    (notBlank : isBlank c = false) : c ∉ blank := by
  intro member
  rw [List.all_eq_true.mp white c member] at notBlank
  cases notBlank

/-- Where a text ends is where its last character stands that is not behind it. -/
theorem last_eq_of_append {before after before' after' : List Char} {c d : Char}
    (same : before ++ c :: after = before' ++ d :: after') (notAfter : d ∉ after)
    (notAfter' : c ∉ after') : c = d := by
  rcases List.append_eq_append_iff.mp same with ⟨between, -, ends⟩ | ⟨between, -, ends⟩
  · cases between with
    | nil => exact (List.cons.inj ends).1
    | cons first rest =>
        obtain ⟨-, rfl⟩ := List.cons.inj ends
        simp at notAfter
  · cases between with
    | nil => exact (List.cons.inj ends).1.symm
    | cons first rest =>
        obtain ⟨-, rfl⟩ := List.cons.inj ends
        simp at notAfter'

/-- Blanks behind a text that ends with blanks behind a brace. -/
theorem append_eq_brace_append_iff {text blank front : List Char} (white : blank.all isBlank) :
    (∃ behind, behind.all isBlank ∧ text ++ blank = front ++ ['\x7d'] ++ behind) ↔
      ∃ behind, behind.all isBlank ∧ text = front ++ ['\x7d'] ++ behind := by
  have noBrace : '\x7d' ∉ blank := not_mem_of_all_isBlank white (by decide)
  constructor
  · rintro ⟨behind, whiteBehind, same⟩
    rcases List.append_eq_append_iff.mp same with ⟨cut, ends, inBlank⟩ | ⟨rest, begins, ends⟩
    · rcases List.eq_nil_or_concat cut with rfl | ⟨earlier, last, rfl⟩
      · exact ⟨[], rfl, by rw [List.append_nil, ends, List.append_nil]⟩
      · rw [List.concat_eq_append, ← List.append_assoc] at ends
        obtain ⟨-, brace⟩ := List.append_inj' ends rfl
        obtain rfl := List.singleton_inj.mp brace
        exact absurd (by simp [inBlank]) noBrace
    · refine ⟨rest, ?_, begins⟩
      rw [ends, List.all_append, Bool.and_eq_true] at whiteBehind
      exact whiteBehind.1
  · rintro ⟨behind, whiteBehind, rfl⟩
    refine ⟨behind ++ blank, ?_, List.append_assoc _ _ _⟩
    rw [List.all_append, whiteBehind, white, Bool.and_self]

theorem spacedLibrary_grammar (front : List Char) :
    (spacedLibrary document wellFormed (front ++ ['\x7d'])).Grammar where
  nullEnds := by
    intro text
    apply Option.ext
    intro found
    rw [spacedLibrary_parse_iff, spacedLibrary_parse_iff, List.takeWhile_idem]
  blankEnds := by
    intro text blank white
    have noNull : '\x00' ∉ blank := not_mem_of_all_isBlank white (by decide)
    apply Option.ext
    intro found
    rw [spacedLibrary_parse_iff, spacedLibrary_parse_iff]
    apply and_congr_right
    intro _
    rw [List.takeWhile_append]
    split
    · rename_i complete
      have whole := (List.takeWhile_prefix _).eq_of_length complete
      rw [takeWhile_of_no_null noNull, whole]
      exact append_eq_brace_append_iff white
    · rfl
  looseEnds := by
    intro before blank c noNull special spaces
    rw [Option.eq_none_iff_forall_not_mem]
    intro found parsed
    obtain ⟨-, behind, white, visible⟩ := spacedLibrary_parse_iff.mp parsed
    have noNullEnd : '\x00' ∉ before ++ c :: blank := by
      rw [List.mem_append, List.mem_cons, not_or, not_or]
      refine ⟨noNull, ?_, not_mem_of_all_isSpace spaces (by decide)⟩
      rintro rfl
      revert special
      decide
    have notBlank : isBlank c = false := by
      have both : ∀ c ∈ [',', '/'], isBlank c = false := by simp [isBlank]
      exact both c special
    rw [takeWhile_of_no_null noNullEnd, List.append_assoc, List.singleton_append] at visible
    rw [last_eq_of_append visible (not_mem_of_all_isSpace spaces (by decide))
      (not_mem_of_all_isBlank white notBlank)] at special
    revert special
    decide
  selfDelimiting := by
    intro text more found other noNull parsed _ parsedMore
    rw [List.mem_append, not_or] at noNull
    obtain ⟨-, blank, -, visible⟩ := spacedLibrary_parse_iff.mp parsed
    obtain ⟨-, blank', white, visibleMore⟩ := spacedLibrary_parse_iff.mp parsedMore
    rw [takeWhile_of_no_null noNull.1] at visible
    rw [takeWhile_of_no_null (by simpa using noNull), visible, List.append_assoc,
      List.append_cancel_left_eq] at visibleMore
    rw [← visibleMore, List.all_append, Bool.and_eq_true] at white
    exact white.2

/-- The library on the settings `{"url":"b"}`. -/
def urlLibrary : JsonLibrary :=
  spacedLibrary (CConfigFile.oneString "b") (CConfigFile.wellFormed_oneString "b")
    "\x7b\"url\":\"b\"\x7d".toList

theorem urlLibrary_grammar : urlLibrary.Grammar :=
  spacedLibrary_grammar "\x7b\"url\":\"b\"".toList

/-- The settings read from a file that ends in an open comment. -/
def commented : CLocalConfigFile :=
  let text := "\x7b\"url\":\"b\"\x7d //".toList
  { fresh (fun _ => some text) with
    fileURL := "local.json"
    fileContents := text
    configJSON := CConfigFile.oneString "b" }

theorem initConfigFile_commented :
    initConfigFile urlLibrary "local.json" (fresh commented.files) = some commented :=
  rfl

end Example

/-- A file that ends in an open comment, and a call that sets what is set already. -/
theorem localConfig_persists_iff_comment :
    Run step commented [.addStringField "url" "b"] commented ∧ Persists urlLibrary commented := by
  have run : Run step commented [.addStringField "url" "b"] commented := Run.nil.snoc rfl
  refine ⟨run, (localConfig_persists_iff urlLibrary urlLibrary_grammar initConfigFile_commented
    run).mpr ?_⟩
  rw [if_neg (by decide +kernel)]
  exact ⟨rfl, [], rfl, .inl (by decide +kernel)⟩

/-- Nothing is changed, and still the settings do not come back: the text that is
parsed holds the document twice. -/
theorem localConfig_not_persistent :
    ¬ ∀ (library : JsonLibrary) (files : String → Option (List Char)) (fileURL : String)
      (opened config : CLocalConfigFile) (calls : List FieldCall), library.Grammar →
      (files fileURL).isSome →
      initConfigFile library fileURL (fresh files) = some opened →
      Run step opened calls config →
      library.parse (config.configJSON.dump library none) = some config.configJSON →
      Persists library config := by
  intro always
  let text := "\x7b\"url\":\"b\"\x7d".toList
  obtain ⟨reopened, reread, -⟩ := always urlLibrary (fun _ => some text) "local.json" _ _ []
    urlLibrary_grammar rfl
    (show initConfigFile urlLibrary "local.json" (fresh fun _ => some text) = some _ from rfl)
    Run.nil rfl
  have unread : urlLibrary.parse (tolerantText (text ++ text)) = none := rfl
  rw [initConfigFile, parseData] at reread
  obtain ⟨document, parsed, -⟩ := Option.map_eq_some_iff.mp reread
  cases unread.symm.trans parsed

end CLocalConfigFile

end DroneEngage
