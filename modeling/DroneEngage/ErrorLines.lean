import DroneEngage.CommentLaws
import DroneEngage.JsonErrors

/-!
# The line that a parse error points at

`ParseData` parses a text without its comments, and what it reports is a line of
that text.  It is the line in the file where no comment in front of code has taken
a newline with it, and where the parser does not stop at a newline, which counts to
the line behind it.
-/

namespace DroneEngage.CommentRemoval

open CommentGrammar

/-- The error that the parser raises on a text, none where it accepts it. -/
abbrev Raises : Type :=
  (text : List Char) → Option (SyntaxError text)

/-- Every character that is kept has as many newlines in front of it as in the file,
and the line that is reported for the error is that of the character in the file at
which it was raised. -/
structure PointsAtLines (raises : Raises) (prgm : List Char) : Prop where
  counts : ∀ index place c, (kept prgm)[index]? = some (place, c) →
    ((removeComments prgm).take index).count '\n' = (prgm.take place).count '\n'
  reports : ∀ error, raises (removeComments prgm) = some error →
    ∀ index place c, error.charsRead = index + 1 → (kept prgm)[index]? = some (place, c) →
      ∃ pCol lineColPart, errorPlace error.what =
        .ok ⟨1 + (prgm.take place).count '\n', pCol, lineColPart⟩

/-- The error is not raised at a newline. -/
def StopsWithinLine (raises : Raises) (text : List Char) : Prop :=
  ∀ error, raises text = some error → ∀ index, error.charsRead = index + 1 →
    text[index]? ≠ some '\n'

/-- No comment with a newline, the one that ends it included, stands before code. -/
def NewlinesFollowCode (text : List Char) : Prop :=
  ∀ pieces, Reading text pieces →
    pieces.Pairwise fun comment later =>
      comment.kept = [] → '\n' ∈ comment.text → later.kept = []

section Lines

variable {prgm : List Char} {pieces front back : List Piece} {c : Char}

theorem pairwise_iff_split {α : Type*} {related : α → α → Prop} {items : List α} :
    items.Pairwise related ↔
      ∀ front later back, items = front ++ later :: back →
        ∀ earlier ∈ front, related earlier later := by
  constructor
  · rintro pairwise front later back rfl earlier member
    exact (List.pairwise_append.mp pairwise).2.2 earlier member later List.mem_cons_self
  · intro splits
    induction items with
    | nil => exact .nil
    | cons item items ih =>
        refine .cons (fun later member => ?_) (ih fun front later back split earlier first => ?_)
        · obtain ⟨front, back, rfl⟩ := List.append_of_mem member
          exact splits (item :: front) later back rfl item List.mem_cons_self
        · exact splits (item :: front) later back (by rw [split]; rfl) earlier
            (List.mem_cons_of_mem item first)

/-- The code in front of a character of the code is the output in front of it. -/
theorem removeComments_split (reading : Reading (reached prgm) (front ++ .code c :: back)) :
    removeComments prgm = codeOf front ++ c :: codeOf back := by
  rw [removeComments_eq_codeOf reading]
  simp [codeOf, Piece.kept]

/-- The pieces in front of it are the text in front of it. -/
theorem prgm_split (reading : Reading (reached prgm) (front ++ .code c :: back)) :
    prgm = textOf front ++ c :: (textOf back ++ prgm.drop (intLength prgm).toNat) := by
  have whole : textOf (front ++ .code c :: back) = textOf front ++ c :: textOf back := by
    simp [textOf, Piece.text]
  have ahead := reading.textOf_eq
  rw [whole] at ahead
  rw [← List.cons_append, ← List.append_assoc, ahead]
  exact (List.take_append_drop _ _).symm

theorem kept_eq (reading : Reading (reached prgm) pieces) :
    kept prgm = codePlaces 0 pieces :=
  keptFrom_eq reading 0

/-- Counted at a character of the code, newlines are lost in the comments in front. -/
theorem count_take_eq_iff (reading : Reading (reached prgm) (front ++ .code c :: back)) :
    ((removeComments prgm).take (codeOf front).length).count '\n' =
        (prgm.take (textOf front).length).count '\n' ↔
      ∀ comment ∈ front, comment.kept = [] → '\n' ∉ comment.text := by
  rw [← count_codeOf_eq_iff]
  have output : (removeComments prgm).take (codeOf front).length = codeOf front := by
    rw [removeComments_split reading]
    exact List.take_left
  have text : prgm.take (textOf front).length = textOf front := by
    rw [prgm_split reading]
    exact List.take_left
  rw [output, text]

theorem getElem?_of_kept {index place : Nat} (found : (kept prgm)[index]? = some (place, c)) :
    (removeComments prgm)[index]? = some c := by
  rw [← kept_map_snd, List.getElem?_map, found]
  rfl

theorem exists_kept_of_getElem? {index : Nat} (found : (removeComments prgm)[index]? = some c) :
    ∃ place, (kept prgm)[index]? = some (place, c) := by
  rw [← kept_map_snd, List.getElem?_map] at found
  obtain ⟨⟨place, d⟩, listed, rfl⟩ := Option.map_eq_some_iff.mp found
  exact ⟨place, listed⟩

/-- The parser counts the newline at which it stops. -/
theorem reported_line {index : Nat} (error : SyntaxError (removeComments prgm))
    (read : error.charsRead = index + 1) (found : (removeComments prgm)[index]? = some c) :
    ∃ pCol lineColPart, errorPlace error.what =
      .ok ⟨1 + (((removeComments prgm).take index).count '\n' + if c = '\n' then 1 else 0 : Nat),
        pCol, lineColPart⟩ := by
  have within : error.charsRead ≤ (removeComments prgm).length := by
    rw [read]
    exact (List.getElem?_eq_some_iff.mp found).1
  have reported := error.errorPlace_what within (length_removeComments_lt prgm)
  rw [read, JsonLexer.count_take_succ, found] at reported
  simpa only [Option.some.injEq] using reported

/-- The counts agree exactly where no comment with a newline stands before code. -/
theorem counts_iff (prgm : List Char) :
    (∀ index place c, (kept prgm)[index]? = some (place, c) →
      ((removeComments prgm).take index).count '\n' = (prgm.take place).count '\n') ↔
      NewlinesFollowCode (reached prgm) := by
  constructor
  · intro counts pieces reading
    rw [pairwise_iff_split]
    rintro front later back rfl comment member isComment newline
    cases later with
    | line body closed => rfl
    | block body closed => rfl
    | code c =>
        have found := @getElem?_codePlaces 0 front back c
        rw [← kept_eq reading] at found
        have counted := counts _ _ c found
        rw [Nat.zero_add, count_take_eq_iff reading] at counted
        exact absurd newline (counted comment member isComment)
  · intro follow index place c found
    obtain ⟨pieces, reading⟩ := Reading.exists (reached prgm)
    have pairwise := follow pieces reading
    rw [kept_eq reading] at found
    obtain ⟨front, back, rfl, rfl, rfl⟩ := exists_front_of_getElem? found
    rw [Nat.zero_add]
    rw [pairwise_iff_split] at pairwise
    rw [count_take_eq_iff reading]
    intro comment member isComment newline
    cases pairwise front (.code c) back rfl comment member isComment newline

/-- The reports point at the lines of the file exactly where no comment with a newline
stands before code, and the parser does not stop at a newline. -/
theorem pointsAtLines_iff (raises : Raises) (prgm : List Char) :
    PointsAtLines raises prgm ↔
      NewlinesFollowCode (reached prgm) ∧ StopsWithinLine raises (removeComments prgm) := by
  constructor
  · rintro ⟨counts, reports⟩
    refine ⟨(counts_iff prgm).mp counts, fun error raised index read newline => ?_⟩
    obtain ⟨place, found⟩ := exists_kept_of_getElem? newline
    obtain ⟨pCol, lineColPart, right⟩ := reports error raised index place '\n' read found
    obtain ⟨pCol', lineColPart', reported⟩ := reported_line error read newline
    rw [reported, counts index place '\n' found, if_pos rfl] at right
    simp only [Except.ok.injEq, ErrorPlace.mk.injEq] at right
    omega
  · rintro ⟨follow, within⟩
    have counts := (counts_iff prgm).mpr follow
    refine ⟨counts, fun error raised index place c read found => ?_⟩
    have here := getElem?_of_kept found
    have other : c ≠ '\n' := fun same => within error raised index read (same ▸ here)
    obtain ⟨pCol, lineColPart, reported⟩ := reported_line error read here
    rw [if_neg other, Nat.add_zero, counts index place c found] at reported
    exact ⟨pCol, lineColPart, reported⟩

/-- After `//` and a newline the next line counts as the first. -/
theorem pointsAtLines_fails : ¬ PointsAtLines (fun _ => none) ['/', '/', '\n', 'x'] := by
  intro points
  have counts := points.counts 0 3 'x' (by decide)
  exact absurd counts (by decide)

end Lines

end DroneEngage.CommentRemoval
