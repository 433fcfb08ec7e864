import DroneEngage.EventRuns
import DroneEngage.IntegerText

/-!
# The position in a parse error

The lexer of the vendored library counts lines and columns while it reads, and a
parse error says in its text at which line and column the lexer stands.  Both
configuration files look the two numbers up in that text.
-/

namespace DroneEngage

open EventRuns IntegerText StreamExtraction

/-- `position_t` -/
structure JsonPosition where
  charsReadTotal : Nat
  charsReadCurrentLine : Nat
  linesRead : Nat

/-- What the lexer keeps of its input: what is still to come, the character that was
read last, none at the end, and whether it is to be read again. -/
structure JsonLexer where
  input : List Char
  current : Option Char
  nextUnget : Bool
  position : JsonPosition

namespace JsonLexer

def start (text : List Char) : JsonLexer :=
  ⟨text, none, false, ⟨0, 0, 0⟩⟩

def get (lexer : JsonLexer) : JsonLexer :=
  let current := if lexer.nextUnget then lexer.current else lexer.input.head?
  let position := lexer.position
  { input := if lexer.nextUnget then lexer.input else lexer.input.tail
    current := current
    nextUnget := false
    position :=
      if current = some '\n' then ⟨position.charsReadTotal + 1, 0, position.linesRead + 1⟩
      else ⟨position.charsReadTotal + 1, position.charsReadCurrentLine + 1, position.linesRead⟩ }

def unget (lexer : JsonLexer) : JsonLexer :=
  let position := lexer.position
  { lexer with
    nextUnget := true
    position :=
      if position.charsReadCurrentLine = 0 then
        ⟨position.charsReadTotal - 1, 0, position.linesRead - 1⟩
      else
        ⟨position.charsReadTotal - 1, position.charsReadCurrentLine - 1, position.linesRead⟩ }

inductive Call
  | get
  | unget

/-- Only the character that was read last is given back. -/
def step (lexer : JsonLexer) : Call → Option JsonLexer
  | .get => some lexer.get
  | .unget =>
      if lexer.nextUnget || lexer.position.charsReadTotal = 0 then none else some lexer.unget

/-- The lexer stands in a text where its position says. -/
structure StandsIn (text : List Char) (lexer : JsonLexer) : Prop where
  input : lexer.input = text.drop (lexer.position.charsReadTotal + lexer.nextUnget.toNat)
  again : lexer.nextUnget = true → lexer.current = text[lexer.position.charsReadTotal]?
  last : ∀ read, lexer.nextUnget = false → lexer.position.charsReadTotal = read + 1 →
    lexer.current = text[read]? ∧
      (lexer.position.charsReadCurrentLine = 0 ↔ lexer.current = some '\n')
  lines : lexer.position.linesRead =
    (text.take lexer.position.charsReadTotal).count '\n'
  column : lexer.position.charsReadCurrentLine ≤ lexer.position.charsReadTotal

variable {text : List Char} {lexer next : JsonLexer}

theorem StandsIn.start (text : List Char) : StandsIn text (start text) :=
  ⟨rfl, nofun, nofun, rfl, Nat.le_refl 0⟩

theorem count_take_succ (c : Char) (text : List Char) (read : Nat) :
    (text.take (read + 1)).count c =
      (text.take read).count c + if text[read]? = some c then 1 else 0 := by
  rw [List.take_add_one, List.count_append]
  cases text[read]? with
  | none => rfl
  | some d => simp [List.count_singleton]

theorem StandsIn.get (stands : StandsIn text lexer) : StandsIn text lexer.get := by
  have lines := stands.lines
  have column := stands.column
  have current : (if lexer.nextUnget then lexer.current else lexer.input.head?) =
      text[lexer.position.charsReadTotal]? := by
    cases again : lexer.nextUnget with
    | true => exact stands.again again
    | false =>
        have input := stands.input
        rw [again] at input
        simp [input]
  have input : (if lexer.nextUnget then lexer.input else lexer.input.tail) =
      text.drop (lexer.position.charsReadTotal + 1) := by
    have input := stands.input
    cases again : lexer.nextUnget with
    | true => simpa [again] using input
    | false =>
        rw [again] at input
        simp [input]
  have counted := count_take_succ '\n' text lexer.position.charsReadTotal
  unfold JsonLexer.get
  rw [current, input]
  dsimp only
  split
  · rename_i newline
    rw [if_pos newline] at counted
    refine ⟨rfl, nofun, ?_, ?_, Nat.zero_le _⟩
    · rintro read - ⟨⟩
      exact ⟨rfl, by simp [newline]⟩
    · dsimp only
      omega
  · rename_i other
    rw [if_neg other] at counted
    refine ⟨rfl, nofun, ?_, ?_, ?_⟩
    · rintro read - ⟨⟩
      exact ⟨rfl, by simp [other]⟩
    · dsimp only
      omega
    · dsimp only
      omega

theorem StandsIn.unget (stands : StandsIn text lexer) (fresh : lexer.nextUnget = false)
    {read : Nat} (total : lexer.position.charsReadTotal = read + 1) :
    StandsIn text lexer.unget := by
  obtain ⟨current, newline⟩ := stands.last read fresh total
  have counted := count_take_succ '\n' text read
  have lines := stands.lines
  have column := stands.column
  have input := stands.input
  rw [total] at lines column input
  rw [← current] at counted
  unfold JsonLexer.unget
  dsimp only
  split
  · rename_i zero
    rw [if_pos (newline.mp zero)] at counted
    refine ⟨by simpa [total, fresh] using input, fun _ => by simpa [total] using current,
      nofun, ?_, Nat.zero_le _⟩
    rw [total, Nat.add_sub_cancel]
    dsimp only
    omega
  · rename_i other
    rw [if_neg (fun same => other (newline.mpr same))] at counted
    refine ⟨by simpa [total, fresh] using input, fun _ => by simpa [total] using current,
      nofun, ?_, ?_⟩
    · rw [total, Nat.add_sub_cancel]
      dsimp only
      omega
    · dsimp only
      omega

theorem StandsIn.step (stands : StandsIn text lexer) {call : Call}
    (stepped : lexer.step call = some next) : StandsIn text next := by
  cases call with
  | get =>
      obtain rfl := Option.some.inj stepped
      exact stands.get
  | unget =>
      simp only [JsonLexer.step, Option.ite_none_left_eq_some, Bool.or_eq_true,
        decide_eq_true_eq, not_or, Bool.not_eq_true] at stepped
      obtain ⟨⟨fresh, begun⟩, same⟩ := stepped
      obtain rfl := Option.some.inj same
      obtain ⟨read, total⟩ := Nat.exists_eq_succ_of_ne_zero begun
      exact stands.unget fresh total

/-- However the lexer goes on, it stands where its position says. -/
theorem standsIn_of_run {calls : List Call}
    (run : Run JsonLexer.step (JsonLexer.start text) calls lexer) : StandsIn text lexer := by
  refine run.invariant (StandsIn text) (.start text) ?_
  intro _ _ _ _ _ stepped stands
  exact stands.step stepped

end JsonLexer

/-- `parse_error::position_string` -/
def positionString (position : JsonPosition) : List Char :=
  " at line ".toList ++ Nat.toDigits 10 (position.linesRead + 1) ++
    (", column ".toList ++ Nat.toDigits 10 position.charsReadCurrentLine)

/-- `what()` of a parse error. -/
def parseErrorText (position : JsonPosition) (whatArg : List Char) : List Char :=
  "[json.exception.parse_error.101] parse error".toList ++ positionString position ++
    (": ".toList ++ whatArg)

/-- A match of `line ([0-9]+), column ([0-9]+)` at the front of a text.  Digits are
followed by no digit, so the longest run of them is the only one that can match. -/
def matchLineCol (text : List Char) : Option (List Char × List Char) := do
  let afterLine ← text.dropPrefix? "line ".toList
  let afterColumn ← (afterLine.dropWhile Char.isDigit).dropPrefix? ", column ".toList
  let line := afterLine.takeWhile Char.isDigit
  let column := afterColumn.takeWhile Char.isDigit
  if line.isEmpty || column.isEmpty then none else some (line, column)

/-- `regex_search`: the first match. -/
def searchLineCol : List Char → Option (List Char × List Char)
  | [] => none
  | c :: rest => (matchLineCol (c :: rest)).or (searchLineCol rest)

/-- What the handlers of both `ParseData` take from an error. -/
structure ErrorPlace where
  pLine : Int
  pCol : Int
  lineColPart : List Char

/-- `stoi` may throw out of the handler. -/
def errorPlace (errMsg : List Char) : Except StringError ErrorPlace :=
  match searchLineCol errMsg with
  | none => .ok ⟨-1, -1, []⟩
  | some (line, column) => do
      let pLine ← stoi 10 line
      let pCol ← stoi 10 column
      .ok ⟨pLine, pCol,
        "line ".toList ++ decimal pLine ++ ", column ".toList ++ decimal pCol⟩

section Search

theorem searchLineCol_append {front : List Char} (absent : 'l' ∉ front) (text : List Char) :
    searchLineCol (front ++ text) = searchLineCol text := by
  induction front with
  | nil => rfl
  | cons c front ih =>
      rw [List.mem_cons, not_or] at absent
      have other : matchLineCol (c :: (front ++ text)) = none := by
        have noPrefix : (c :: (front ++ text)).dropPrefix? "line ".toList = none := by
          rw [Option.eq_none_iff_forall_ne_some]
          intro rest found
          obtain ⟨word, split, same⟩ := List.dropPrefix?_eq_some_iff.mp found
          obtain rfl := eq_of_beq same
          exact absent.1 (List.cons.inj split).1.symm
        rw [matchLineCol, noPrefix]
        rfl
      rw [List.cons_append, searchLineCol, other, Option.none_or, ih absent.2]

theorem searchLineCol_of_match {text : List Char} {found : List Char × List Char}
    (first : matchLineCol text = some found) : searchLineCol text = some found := by
  cases text with
  | nil => cases first
  | cons c rest => rw [searchLineCol, first, Option.some_or]

theorem matchLineCol_printed (line column : Nat) {rest : List Char}
    (ends : ∀ c, rest.head? = some c → c.isDigit = false) :
    matchLineCol ("line ".toList ++ (Nat.toDigits 10 line ++
      (", column ".toList ++ (Nat.toDigits 10 column ++ rest)))) =
        some (Nat.toDigits 10 line, Nat.toDigits 10 column) := by
  have comma : ∀ c, (", column ".toList ++ (Nat.toDigits 10 column ++ rest)).head? = some c →
      c.isDigit = false := by
    rintro _ ⟨⟩
    rfl
  have same (text : List Char) : (text == text) = true := beq_self_eq_true text
  have nonempty (n : Nat) : (Nat.toDigits 10 n).isEmpty = false :=
    List.isEmpty_eq_false_iff.mpr Nat.toDigits_ne_nil
  simp only [matchLineCol, List.dropPrefix?_append_of_beq _ (same _), Option.bind_eq_bind,
    Option.bind_some, takeWhile_word isDigit_toDigits comma, dropWhile_word isDigit_toDigits comma,
    takeWhile_word isDigit_toDigits ends, nonempty, Bool.or_false, Bool.false_eq_true, if_false]

/-- Line and column are found in the text of a parse error. -/
theorem errorPlace_parseErrorText {position : JsonPosition} (whatArg : List Char)
    (lineFits : position.linesRead + 1 < 2 ^ 31)
    (columnFits : position.charsReadCurrentLine < 2 ^ 31) :
    errorPlace (parseErrorText position whatArg) =
      .ok ⟨(position.linesRead + 1 : Nat), position.charsReadCurrentLine,
        "line ".toList ++ decimal (position.linesRead + 1 : Nat) ++ ", column ".toList ++
          decimal position.charsReadCurrentLine⟩ := by
  have split : parseErrorText position whatArg =
      "[json.exception.parse_error.101] parse error".toList ++ (" at ".toList ++
        ("line ".toList ++ (Nat.toDigits 10 (position.linesRead + 1) ++ (", column ".toList ++
          (Nat.toDigits 10 position.charsReadCurrentLine ++ (": ".toList ++ whatArg)))))) := by
    have words : " at line ".toList = " at ".toList ++ "line ".toList := by decide
    unfold parseErrorText positionString
    rw [words]
    simp only [List.append_assoc]
  have found : searchLineCol (parseErrorText position whatArg) =
      some (Nat.toDigits 10 (position.linesRead + 1),
        Nat.toDigits 10 position.charsReadCurrentLine) := by
    have here := @matchLineCol_printed (position.linesRead + 1) position.charsReadCurrentLine
      (": ".toList ++ whatArg) (by rintro _ ⟨⟩; rfl)
    rw [split, searchLineCol_append (by decide), searchLineCol_append (by decide)]
    exact searchLineCol_of_match here
  have pLine := @stoi_toDigits 10 (by decide) (by decide) _ lineFits
  have pCol := @stoi_toDigits 10 (by decide) (by decide) _ columnFits
  unfold errorPlace
  rw [found]
  dsimp only
  rw [pLine, pCol]
  rfl

end Search

/-- A parse error: the lexer has read some of the text, more than newlines, which are
skipped before a token. -/
structure SyntaxError (text : List Char) where
  lexer : JsonLexer
  calls : List JsonLexer.Call
  run : Run JsonLexer.step (.start text) calls lexer
  begun : ∃ c ∈ text.take lexer.position.charsReadTotal, c ≠ '\n'
  whatArg : List Char

namespace SyntaxError

variable {text : List Char} (error : SyntaxError text)

def charsRead : Nat :=
  error.lexer.position.charsReadTotal

def what : List Char :=
  parseErrorText error.lexer.position error.whatArg

/-- The line that is found is the one on which the last character was read. -/
theorem errorPlace_what (within : error.charsRead ≤ text.length)
    (short : text.length < 2 ^ 31) : ∃ pCol lineColPart, errorPlace error.what =
      .ok ⟨1 + (text.take error.charsRead).count '\n', pCol, lineColPart⟩ := by
  have stands := JsonLexer.standsIn_of_run error.run
  have lines := stands.lines
  have column := stands.column
  have fewer : (text.take error.charsRead).count '\n' < error.charsRead := by
    obtain ⟨c, read, other⟩ := error.begun
    have size : (text.take error.charsRead).length = error.charsRead :=
      List.length_take_of_le within
    have bound : (text.take error.charsRead).count '\n' ≤ error.charsRead :=
      Nat.le_trans List.count_le_length (Nat.le_of_eq size)
    refine Nat.lt_of_le_of_ne bound fun all => other ?_
    exact (List.count_eq_length.mp (all.trans size.symm) c read).symm
  have total : error.lexer.position.charsReadTotal = error.charsRead := rfl
  rw [total] at lines column
  have found := @errorPlace_parseErrorText error.lexer.position error.whatArg
    (by omega) (by omega)
  rw [lines, Nat.cast_add, Int.add_comm] at found
  exact ⟨_, _, found⟩

end SyntaxError

end DroneEngage
