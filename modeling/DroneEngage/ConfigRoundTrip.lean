import DroneEngage.ConfigFile
import DroneEngage.DumpedText

/-!
# Saving and reloading the configuration

The saved text comes back as it was exactly when `removeComments` finds no
comment in it.  JSON has no comments, but a string may hold `//` or `/*`: a URL
does.  Then the parser is given fewer `/` than the configuration has, and can
not return it.
-/

namespace DroneEngage

open CommentRemoval

namespace CConfigFile

/-- A configuration object survives `saveConfigFile` and `ParseData`, and
`updateJSON` of its compact text applies it. -/
def RoundTrips (library : JsonLibrary) (document : Json) : Prop :=
  (∀ config : CConfigFile, config.baseJSON = document →
    parseData library config (saveConfigFile library true config).publishedFile =
      some { config with configJSON := document }) ∧
  ∀ (writable : Bool) (config : CConfigFile),
    updateJSON library writable config (document.dump library none) =
      applyParsedUpdate library writable config document

/-- The text that is parsed again has fewer `/` than the document if a comment
opens in it, so the parser does not return the document. -/
theorem parse_removeCommentsFrom_ne {library : JsonLibrary} (lawful : library.Lawful)
    {text : List Char} {document : Json} (rendered : Renders text document.strings)
    (length : Nat) (opens : OpensComment (text.take length)) :
    library.parse (removeCommentsFrom false false (text.take length)) ≠ some document := by
  intro parsed
  have escaped := ((EscapedText.of_renders rendered).take length).removeCommentsFrom.1
  have enough := lawful.slashesRead parsed
  have fewer := count_removeCommentsFrom_lt opens
  have cut : (text.take length).count '/' ≤ text.count '/' :=
    (List.take_sublist length text).count_le '/'
  rw [escaped.readSlashes_eq_count, Json.slashes, ← rendered.count_slash] at enough
  omega

/-- A part of an object's text is not the text of an object. -/
theorem parse_take_dump_ne {library : JsonLibrary} (lawful : library.Lawful)
    {pretty : Option Nat} {members : List (String × Json)}
    (reads : library.parse ((Json.object members).dump library pretty) =
      some (.object members))
    {length : Nat} (cut : length < ((Json.object members).dump library pretty).length) :
    library.parse (((Json.object members).dump library pretty).take length) ≠
      some (.object members) := by
  intro parsed
  have noNull := (renders_dump pretty lawful (.object members)).null_not_mem
  obtain ⟨front, ends⟩ := dump_object_ends library pretty members
  rw [ends] at noNull reads cut parsed
  have spaces : ∀ c ∈ (front ++ ['\x7d']).drop length, c ∈ [' ', '\t', '\n', '\r'] :=
    lawful.selfDelimiting (by rwa [List.take_append_drop]) parsed
      (by rwa [List.take_append_drop])
  have last : '\x7d' ∈ (front ++ ['\x7d']).drop length := by
    rw [List.length_append, List.length_singleton] at cut
    rw [List.drop_append_of_le_length (by omega)]
    exact List.mem_append_right _ (List.mem_singleton_self _)
  have notSpace : '\x7d' ∉ [' ', '\t', '\n', '\r'] := by decide
  exact notSpace (spaces _ last)

theorem parse_removeComments_dump_iff {library : JsonLibrary} (lawful : library.Lawful)
    {pretty : Option Nat} {members : List (String × Json)}
    (reads : library.parse ((Json.object members).dump library pretty) =
      some (.object members)) :
    library.parse (removeComments ((Json.object members).dump library pretty)) =
        some (.object members) ↔
      (∀ string ∈ (Json.object members).strings, ¬ OpensComment string) ∧
        ((Json.object members).dump library pretty).length < 2 ^ 31 := by
  have rendered := renders_dump pretty lawful (.object members)
  constructor
  · intro parsed
    have bound := intLength_toNat_lt ((Json.object members).dump library pretty)
    unfold removeComments at parsed
    generalize (intLength ((Json.object members).dump library pretty)).toNat = length
      at bound parsed
    by_cases opens :
        OpensComment (((Json.object members).dump library pretty).take length)
    · exact absurd parsed (parse_removeCommentsFrom_ne lawful rendered length opens)
    · rw [removeCommentsFrom_of_not_opensComment opens] at parsed
      have whole : ((Json.object members).dump library pretty).length ≤ length :=
        Nat.le_of_not_lt fun cut => parse_take_dump_ne lawful reads cut parsed
      rw [List.take_of_length_le whole, rendered.opensComment_iff] at opens
      refine ⟨fun string member opensString => ?_, by omega⟩
      exact opens ⟨string, member, opensString⟩
  · rintro ⟨plain, short⟩
    have unopened : ¬ OpensComment ((Json.object members).dump library pretty) := by
      rw [rendered.opensComment_iff]
      rintro ⟨string, member, opens⟩
      exact plain string member opens
    rw [removeComments_of_not_opensComment short unopened, reads]

/-- A configuration with one string. -/
def oneString (text : String) : Json :=
  .object [("url", .string text)]

/-- Reads the texts of one document and writes no double but zero. -/
def oneDocumentLibrary (document : Json) (wellFormed : document.WellFormed)
    (pretty compact : List Char) : JsonLibrary where
  parse := fun text => if text = pretty ∨ text = compact then some document else none
  dumpFloat := fun _ => ['0', '.', '0']
  parse_wellFormed := by
    intro text found parsed
    split at parsed
    · exact Option.some.inj parsed ▸ wellFormed
    · simp at parsed

theorem oneDocumentLibrary_reads {document : Json} {wellFormed : document.WellFormed}
    {pretty compact text : List Char} {found : Json}
    (parsed : (oneDocumentLibrary document wellFormed pretty compact).parse text =
      some found) :
    document = found ∧ (text = pretty ∨ text = compact) := by
  simp only [oneDocumentLibrary] at parsed
  split at parsed
  · rename_i known
    exact ⟨Option.some.inj parsed, known⟩
  · simp at parsed

theorem oneDocumentLibrary_lawful (document : Json) (wellFormed : document.WellFormed)
    (pretty compact : List Char)
    (prettyRead : document.slashes ≤ readSlashes pretty)
    (compactRead : document.slashes ≤ readSlashes compact)
    (apart : ¬ pretty <+: compact ∧ ¬ compact <+: pretty) :
    (oneDocumentLibrary document wellFormed pretty compact).Lawful where
  floatText := by
    intro value c member
    have written : ∀ c ∈ ['0', '.', '0'], c.isAlphanum = true ∨ c ∈ ['+', '-', '.'] := by
      simp [Char.isAlphanum]
    exact written c member
  slashesRead := by
    intro text found parsed
    obtain ⟨rfl, rfl | rfl⟩ := oneDocumentLibrary_reads parsed
    · exact prettyRead
    · exact compactRead
  selfDelimiting := by
    intro text more members found _ parsed parsedMore
    have nothing : more = [] := by
      obtain ⟨-, known⟩ := oneDocumentLibrary_reads parsed
      obtain ⟨-, knownMore⟩ := oneDocumentLibrary_reads parsedMore
      rcases known with rfl | rfl <;> rcases knownMore with same | other
      · exact List.append_right_eq_self.mp same
      · exact absurd ⟨more, other⟩ apart.1
      · exact absurd ⟨more, same⟩ apart.2
      · exact List.append_right_eq_self.mp other
    simp [nothing]

theorem wellFormed_oneString (text : String) : (oneString text).WellFormed :=
  (Json.WellFormed.string text).singleton _

/-- The library on a configuration that holds the URL of a server. -/
def serverLibrary : JsonLibrary :=
  oneDocumentLibrary (oneString "http://a") (wellFormed_oneString _)
    "\x7b\n    \"url\": \"http://a\"\n\x7d".toList
    "\x7b\"url\":\"http://a\"\x7d".toList

theorem serverLibrary_lawful : serverLibrary.Lawful :=
  oneDocumentLibrary_lawful _ _ _ _ (by decide) (by decide) (by decide)

/-- The library on a configuration whose string holds a single `/`. -/
def plainLibrary : JsonLibrary :=
  oneDocumentLibrary (oneString "a/b") (wellFormed_oneString _)
    "\x7b\n    \"url\": \"a/b\"\n\x7d".toList
    "\x7b\"url\":\"a/b\"\x7d".toList

theorem plainLibrary_lawful : plainLibrary.Lawful :=
  oneDocumentLibrary_lawful _ _ _ _ (by decide) (by decide) (by decide)

/-- The configuration comes back exactly when no key or string holds `//` or
`/*` and the saved text is shorter than `2 ^ 31` bytes. -/
theorem config_roundTrip_iff (library : JsonLibrary) (lawful : library.Lawful)
    (members : List (String × Json))
    (reads : library.parse ((Json.object members).dump library (some 4)) =
      some (.object members))
    (readsCompact : library.parse ((Json.object members).dump library none) =
      some (.object members)) :
    RoundTrips library (.object members) ↔
      (∀ string ∈ (Json.object members).strings, ¬ OpensComment string) ∧
        ((Json.object members).dump library (some 4)).length < 2 ^ 31 := by
  rw [← parse_removeComments_dump_iff lawful reads]
  constructor
  · intro roundTrips
    have reloaded := roundTrips.1 { (default : CConfigFile) with baseJSON := .object members } rfl
    simp only [parseData, saveConfigFile, if_pos, Option.map_eq_some_iff] at reloaded
    obtain ⟨document, parsed, equal⟩ := reloaded
    have same : document = .object members := congrArg configJSON equal
    rw [parsed, same]
  · intro parsed
    have conditions := (parse_removeComments_dump_iff lawful reads).mp parsed
    have compact := (parse_removeComments_dump_iff lawful readsCompact).mpr
      ⟨conditions.1, Nat.lt_of_le_of_lt (length_dump_le library 4 _) conditions.2⟩
    refine ⟨fun config base => ?_, fun writable config => ?_⟩
    · simp only [parseData, saveConfigFile, if_pos, base, parsed, Option.map_some]
    · simp only [updateJSON, compact]

/-- A configuration without a comment in its strings comes back. -/
theorem config_roundTrip_iff_plain :
    RoundTrips plainLibrary (oneString "a/b") :=
  (config_roundTrip_iff plainLibrary plainLibrary_lawful [("url", .string "a/b")] rfl rfl).mpr
    ⟨by decide, by decide⟩

/-- A URL does not survive: what follows `http:` is taken for a comment. -/
theorem config_roundTrip_fails :
    ¬ ∀ (library : JsonLibrary) (members : List (String × Json)), library.Lawful →
      library.parse ((Json.object members).dump library (some 4)) =
        some (.object members) →
      library.parse ((Json.object members).dump library none) =
        some (.object members) →
      RoundTrips library (.object members) := by
  intro always
  have roundTrips := always serverLibrary [("url", .string "http://a")]
    serverLibrary_lawful rfl rfl
  have reloaded :=
    roundTrips.1 { (default : CConfigFile) with baseJSON := oneString "http://a" } rfl
  have unread : (serverLibrary.parse (removeComments
      ((oneString "http://a").dump serverLibrary (some 4)))).isSome = false := by
    decide
  have read := congrArg Option.isSome reloaded
  simp only [parseData, saveConfigFile, if_pos, Option.isSome_map, unread] at read
  exact Bool.false_ne_true read

end CConfigFile

end DroneEngage
