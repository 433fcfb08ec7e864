import Mathlib.Data.List.Basic
import Mathlib.Data.List.Infix

/-!
# Texts with comments

A text is read from the left as characters of code, comments up to the end of
their line, and comments between `/*` and `*/`.  A comment that is not closed
goes on to the end of the text.  Every text has such a reading.
-/

namespace DroneEngage.CommentGrammar

inductive Piece
  | code (c : Char)
  | line (body : List Char) (closed : Bool)
  | block (body : List Char) (closed : Bool)

namespace Piece

/-- A piece as it stands in the text; the newline belongs to the comment that it closes. -/
def text : Piece → List Char
  | code c => [c]
  | line body closed => '/' :: '/' :: body ++ if closed then ['\n'] else []
  | block body closed => '/' :: '*' :: body ++ if closed then ['*', '/'] else []

/-- What a piece has outside comments. -/
def kept : Piece → List Char
  | code c => [c]
  | _ => []

theorem kept_sublist (piece : Piece) : piece.kept.Sublist piece.text := by
  cases piece with
  | code c => exact .refl _
  | line body closed => exact List.nil_sublist _
  | block body closed => exact List.nil_sublist _

end Piece

def textOf (pieces : List Piece) : List Char :=
  pieces.flatMap Piece.text

def codeOf (pieces : List Piece) : List Char :=
  pieces.flatMap Piece.kept

@[simp]
theorem codeOf_cons (piece : Piece) (pieces : List Piece) :
    codeOf (piece :: pieces) = piece.kept ++ codeOf pieces :=
  rfl

@[simp]
theorem textOf_cons (piece : Piece) (pieces : List Piece) :
    textOf (piece :: pieces) = piece.text ++ textOf pieces :=
  rfl

/-- The code of the pieces, each character with its place in the text. -/
def codePlaces : Nat → List Piece → List (Nat × Char)
  | _, [] => []
  | place, piece :: pieces =>
      piece.kept.map (Prod.mk place) ++ codePlaces (place + piece.text.length) pieces

/-- A comment opens at a character with a rest behind it. -/
def Opens (c : Char) (rest : List Char) : Prop :=
  c = '/' ∧ (rest.head? = some '/' ∨ rest.head? = some '*')

inductive Reading : List Char → List Piece → Prop
  | nil : Reading [] []
  | code {c rest pieces} : ¬ Opens c rest → Reading rest pieces →
      Reading (c :: rest) (.code c :: pieces)
  | line {body rest pieces} : '\n' ∉ body → Reading rest pieces →
      Reading ((Piece.line body true).text ++ rest) (.line body true :: pieces)
  | openLine {body} : '\n' ∉ body → Reading (Piece.line body false).text [.line body false]
  | block {body rest pieces} : ¬ ['*', '/'] <:+: body → Reading rest pieces →
      Reading ((Piece.block body true).text ++ rest) (.block body true :: pieces)
  | openBlock {body} : ¬ ['*', '/'] <:+: body →
      Reading (Piece.block body false).text [.block body false]

section Scanning

theorem pair_infix_cons_iff {α : Type*} {first second c : α} {rest : List α} :
    [first, second] <:+: c :: rest ↔
      c = first ∧ rest.head? = some second ∨ [first, second] <:+: rest := by
  rw [List.infix_cons_iff, List.cons_prefix_cons]
  cases rest with
  | nil => simp
  | cons next rest => simp [List.cons_prefix_cons, eq_comm]

/-- The line of a comment ends somewhere or nowhere. -/
theorem exists_lineEnd (text : List Char) :
    '\n' ∉ text ∨ ∃ body rest, '\n' ∉ body ∧ text = body ++ '\n' :: rest := by
  by_cases newline : '\n' ∈ text
  · obtain ⟨body, rest, split, fresh⟩ := List.eq_append_cons_of_mem newline
    exact .inr ⟨body, rest, fresh, split⟩
  · exact .inl newline

/-- A block comment is closed at the first `*/`, or there is none. -/
theorem exists_blockEnd (text : List Char) :
    ¬ ['*', '/'] <:+: text ∨
      ∃ body rest, ¬ ['*', '/'] <:+: body ∧ text = body ++ '*' :: '/' :: rest := by
  induction text with
  | nil => exact .inl (by simp)
  | cons c text ih =>
      by_cases closes : c = '*' ∧ text.head? = some '/'
      · obtain ⟨rfl, slash⟩ := closes
        obtain ⟨rest, rfl⟩ := List.head?_eq_some_iff.mp slash
        exact .inr ⟨[], rest, by simp, rfl⟩
      · rcases ih with never | ⟨body, rest, unclosed, rfl⟩
        · left
          rw [pair_infix_cons_iff]
          exact not_or.mpr ⟨closes, never⟩
        · refine .inr ⟨c :: body, rest, ?_, rfl⟩
          rw [pair_infix_cons_iff]
          refine not_or.mpr ⟨fun later => closes ⟨later.1, ?_⟩, unclosed⟩
          rw [List.head?_append, later.2]
          rfl

end Scanning

theorem Reading.exists (text : List Char) : ∃ pieces, Reading text pieces := by
  induction size : text.length using Nat.strong_induction_on generalizing text with
  | _ size ih =>
      subst size
      cases text with
      | nil => exact ⟨[], .nil⟩
      | cons c rest =>
          by_cases opens : Opens c rest
          · obtain ⟨rfl, line | block⟩ := opens
            · obtain ⟨rest, rfl⟩ := List.head?_eq_some_iff.mp line
              rcases exists_lineEnd rest with unclosed | ⟨body, rest, noNewline, rfl⟩
              · have reading := Reading.openLine unclosed
                exact ⟨_, by simpa [Piece.text] using reading⟩
              · obtain ⟨pieces, later⟩ := ih rest.length (by simp; omega) rest rfl
                have reading := Reading.line noNewline later
                exact ⟨_, by simpa [Piece.text] using reading⟩
            · obtain ⟨rest, rfl⟩ := List.head?_eq_some_iff.mp block
              rcases exists_blockEnd rest with unclosed | ⟨body, rest, noClose, rfl⟩
              · have reading := Reading.openBlock unclosed
                exact ⟨_, by simpa [Piece.text] using reading⟩
              · obtain ⟨pieces, later⟩ := ih rest.length (by simp; omega) rest rfl
                have reading := Reading.block noClose later
                exact ⟨_, by simpa [Piece.text] using reading⟩
          · obtain ⟨pieces, later⟩ := ih rest.length (by simp) rest rfl
            exact ⟨_, .code opens later⟩

namespace Reading

variable {text : List Char} {pieces : List Piece}

theorem textOf_eq (reading : Reading text pieces) : textOf pieces = text := by
  induction reading with
  | nil => rfl
  | code _ _ ih => simp [Piece.text, ih]
  | line _ _ ih => simp [ih]
  | openLine _ => simp [textOf]
  | block _ _ ih => simp [ih]
  | openBlock _ => simp [textOf]

/-- What is not the start of a comment is the first of the code. -/
theorem head_codeOf {c : Char} {rest : List Char} (reading : Reading (c :: rest) pieces)
    (plain : ¬ Opens c rest) : (codeOf pieces).head? = some c := by
  generalize whole : c :: rest = text at reading
  cases reading with
  | nil => cases whole
  | code _ _ =>
      obtain ⟨rfl, rfl⟩ := List.cons.inj whole
      rfl
  | line _ _ | openLine _ | block _ _ | openBlock _ =>
      obtain ⟨rfl, rfl⟩ := List.cons.inj whole
      exact absurd ⟨rfl, by simp⟩ plain

/-- Code that stays behind where comments were opens no comment. -/
theorem codeOf_code (reading : Reading text pieces) :
    Reading (codeOf pieces) ((codeOf pieces).map .code) := by
  induction reading with
  | nil => exact .nil
  | @code c rest pieces plain later ih =>
      have plainCode : ¬ Opens c (codeOf pieces) := by
        rintro ⟨rfl, opens⟩
        cases rest with
        | nil =>
            cases later
            exact opens.elim nofun nofun
        | cons next rest =>
            -- the next character is no `/`, so it is code as well
            have notSlash : next ≠ '/' := fun slash => plain ⟨rfl, .inl (by rw [slash]; rfl)⟩
            have first := later.head_codeOf fun opens => notSlash opens.1
            refine plain ⟨rfl, ?_⟩
            rw [first] at opens
            exact opens
      exact .code plainCode ih
  | line _ _ ih => exact ih
  | openLine _ => exact .nil
  | block _ _ ih => exact ih
  | openBlock _ => exact .nil

end Reading

section Places

variable {place index : Nat} {pieces front back : List Piece} {c : Char}

theorem codePlaces_map_snd : (codePlaces place pieces).map Prod.snd = codeOf pieces := by
  induction pieces generalizing place with
  | nil => rfl
  | cons piece pieces ih => simp [codePlaces, ih, Function.comp_def]

theorem codePlaces_append :
    codePlaces place (front ++ back) =
      codePlaces place front ++ codePlaces (place + (textOf front).length) back := by
  induction front generalizing place with
  | nil => rfl
  | cons piece front ih => simp [codePlaces, ih, Nat.add_assoc]

/-- A character of the code is found behind the code in front of it. -/
theorem getElem?_codePlaces :
    (codePlaces place (front ++ .code c :: back))[(codeOf front).length]? =
      some (place + (textOf front).length, c) := by
  have frontLength : (codePlaces place front).length = (codeOf front).length := by
    rw [← @codePlaces_map_snd place front, List.length_map]
  rw [codePlaces_append, ← frontLength, List.getElem?_append_right (Nat.le_refl _),
    Nat.sub_self]
  rfl

theorem exists_front_of_getElem? {site : Nat}
    (found : (codePlaces place pieces)[index]? = some (site, c)) :
    ∃ front back, pieces = front ++ .code c :: back ∧ (codeOf front).length = index ∧
      place + (textOf front).length = site := by
  induction pieces generalizing place index with
  | nil => cases found
  | cons piece pieces ih =>
      rw [codePlaces] at found
      by_cases here : index < piece.kept.length
      · cases piece with
        | code d =>
            obtain rfl : index = 0 := Nat.lt_one_iff.mp here
            obtain ⟨rfl, rfl⟩ := Prod.mk.inj (Option.some.inj found)
            exact ⟨[], pieces, rfl, rfl, rfl⟩
        | line body closed => cases here
        | block body closed => cases here
      · rw [List.getElem?_append_right (by simpa using here)] at found
        obtain ⟨front, back, rfl, code, text⟩ := ih found
        refine ⟨piece :: front, back, rfl, ?_, ?_⟩
        · rw [List.length_map] at code
          rw [codeOf_cons, List.length_append]
          omega
        · rw [textOf_cons, List.length_append]
          omega

theorem codeOf_sublist (pieces : List Piece) : (codeOf pieces).Sublist (textOf pieces) := by
  induction pieces with
  | nil => exact .refl _
  | cons piece pieces ih => exact piece.kept_sublist.append ih

/-- A piece outside comments is all kept. -/
theorem Piece.count_kept_eq_iff (piece : Piece) :
    piece.kept.count c = piece.text.count c ↔ (piece.kept = [] → c ∉ piece.text) := by
  cases piece with
  | code d => simp [kept, text]
  | line body closed => simp [kept, ← List.count_eq_zero, eq_comm]
  | block body closed => simp [kept, ← List.count_eq_zero, eq_comm]

/-- Code and text have a character equally often where no comment has it. -/
theorem count_codeOf_eq_iff :
    (codeOf pieces).count c = (textOf pieces).count c ↔
      ∀ piece ∈ pieces, piece.kept = [] → c ∉ piece.text := by
  induction pieces with
  | nil => simp [codeOf, textOf]
  | cons piece pieces ih =>
      have first := piece.kept_sublist.count_le c
      have later := (codeOf_sublist pieces).count_le c
      rw [List.forall_mem_cons, ← ih, ← piece.count_kept_eq_iff, codeOf_cons, textOf_cons,
        List.count_append, List.count_append]
      omega

end Places

end DroneEngage.CommentGrammar
