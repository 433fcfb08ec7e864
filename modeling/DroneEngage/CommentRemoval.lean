import Mathlib.Algebra.Order.Ring.Int
import Mathlib.Data.List.Basic

/-!
# Removing comments before a JSON parse

`removeComments` walks once over the characters of a text with two flags.  It
knows nothing of JSON strings: whatever looks like the start of a comment is
one.  A text is a list of C++ characters, so each character here is one byte.
-/

namespace DroneEngage.CommentRemoval

/-- The loop of `removeComments` from one position on, with its two flags. -/
def removeCommentsFrom : Bool → Bool → List Char → List Char
  | _, _, [] => []
  | sCmt, mCmt, [c] =>
      if sCmt || mCmt then [] else [c]
  | sCmt, mCmt, c :: next :: rest =>
      if sCmt ∧ c = '\n' then removeCommentsFrom false mCmt (next :: rest)
      else if mCmt ∧ c = '*' ∧ next = '/' then removeCommentsFrom sCmt false rest
      else if sCmt ∨ mCmt then removeCommentsFrom sCmt mCmt (next :: rest)
      else if c = '/' ∧ next = '/' then removeCommentsFrom true mCmt rest
      else if c = '/' ∧ next = '*' then removeCommentsFrom sCmt true rest
      else c :: removeCommentsFrom sCmt mCmt (next :: rest)

/-- `int n = prgm.length()`: the length wraps around from `2 ^ 31` on. -/
def intLength (prgm : List Char) : Int :=
  (Int32.ofNat prgm.length).toInt

/-- The text without its comments; the loop runs while `i < n`. -/
def removeComments (prgm : List Char) : List Char :=
  removeCommentsFrom false false (prgm.take (intLength prgm).toNat)

/-- Some `/` is directly followed by a `/` or a `*`. -/
def OpensComment : List Char → Prop
  | [] => False
  | c :: rest =>
      (c = '/' ∧ (rest.head? = some '/' ∨ rest.head? = some '*')) ∨ OpensComment rest

instance decidableOpensComment : DecidablePred OpensComment
  | [] => inferInstanceAs (Decidable False)
  | _ :: rest =>
      have := decidableOpensComment rest
      inferInstanceAs (Decidable (_ ∨ _))

/-- Where there is no `/`, no comment opens. -/
theorem opensComment_append_of_not_mem {front : List Char} (noSlash : '/' ∉ front)
    (text : List Char) : OpensComment (front ++ text) ↔ OpensComment text := by
  induction front with
  | nil => rfl
  | cons c front ih =>
      rw [List.mem_cons, not_or] at noSlash
      rw [List.cons_append, OpensComment, ih noSlash.2]
      exact or_iff_right fun opens => noSlash.1 opens.1.symm

theorem intLength_of_lt {prgm : List Char} (short : prgm.length < 2 ^ 31) :
    intLength prgm = prgm.length := by
  unfold intLength
  rw [Int32.toInt_ofNat_of_lt short]

theorem intLength_toNat_lt (prgm : List Char) :
    (intLength prgm).toNat < 2 ^ 31 := by
  have bound := (Int32.ofNat prgm.length).toInt_lt
  unfold intLength
  omega

/-- In a line comment only a newline changes the flags. -/
@[simp]
theorem removeCommentsFrom_lineComment (c : Char) (rest : List Char) :
    removeCommentsFrom true false (c :: rest) =
      removeCommentsFrom (decide (c ≠ '\n')) false rest := by
  cases rest with
  | nil => simp [removeCommentsFrom]
  | cons next rest =>
      by_cases newline : c = '\n' <;> simp [removeCommentsFrom, newline]

/-- In a block comment only `*/` changes the flags. -/
theorem removeCommentsFrom_blockComment (c : Char) (rest : List Char) :
    removeCommentsFrom false true (c :: rest) =
      if c = '*' ∧ rest.head? = some '/' then removeCommentsFrom false false rest.tail
      else removeCommentsFrom false true rest := by
  cases rest with
  | nil => simp [removeCommentsFrom]
  | cons next rest => simp [removeCommentsFrom]

/-- Outside comments a character is kept unless it opens one. -/
theorem removeCommentsFrom_code (c : Char) (rest : List Char) :
    removeCommentsFrom false false (c :: rest) =
      if c = '/' ∧ rest.head? = some '/' then removeCommentsFrom true false rest.tail
      else if c = '/' ∧ rest.head? = some '*' then
        removeCommentsFrom false true rest.tail
      else c :: removeCommentsFrom false false rest := by
  cases rest with
  | nil => simp [removeCommentsFrom]
  | cons next rest => simp [removeCommentsFrom]

@[simp]
theorem removeCommentsFrom_nil (sCmt mCmt : Bool) :
    removeCommentsFrom sCmt mCmt [] = [] := by
  simp [removeCommentsFrom]

theorem removeCommentsFrom_of_not_opensComment {text : List Char}
    (plain : ¬ OpensComment text) :
    removeCommentsFrom false false text = text := by
  induction text with
  | nil => simp
  | cons c rest ih =>
      simp only [OpensComment, not_or] at plain
      have notLine : ¬ (c = '/' ∧ rest.head? = some '/') :=
        fun opens => plain.1 ⟨opens.1, .inl opens.2⟩
      have notBlock : ¬ (c = '/' ∧ rest.head? = some '*') :=
        fun opens => plain.1 ⟨opens.1, .inr opens.2⟩
      rw [removeCommentsFrom_code, if_neg notLine, if_neg notBlock, ih plain.2]

theorem removeCommentsFrom_sublist (sCmt mCmt : Bool) (text : List Char) :
    (removeCommentsFrom sCmt mCmt text).Sublist text := by
  fun_induction removeCommentsFrom sCmt mCmt text with
  | case1 => exact List.Sublist.refl []
  | case2 => exact List.nil_sublist _
  | case3 => exact List.Sublist.refl _
  | case4 _ _ c next rest _ ih => exact ih.cons c
  | case5 _ _ c next rest _ _ ih => exact (ih.cons next).cons c
  | case6 _ _ c next rest _ _ _ ih => exact ih.cons c
  | case7 _ _ c next rest _ _ _ _ ih => exact (ih.cons next).cons c
  | case8 _ _ c next rest _ _ _ _ _ ih => exact (ih.cons next).cons c
  | case9 _ _ c next rest _ _ _ _ _ ih => exact ih.cons_cons c

theorem removeCommentsFrom_lineComment_append {front : List Char}
    (noNewline : '\n' ∉ front) (text : List Char) :
    removeCommentsFrom true false (front ++ text) = removeCommentsFrom true false text := by
  induction front with
  | nil => rfl
  | cons c front ih =>
      rw [List.mem_cons, not_or] at noNewline
      rw [List.cons_append, removeCommentsFrom_lineComment,
        decide_eq_true (Ne.symm noNewline.1), ih noNewline.2]

theorem removeCommentsFrom_blockComment_append {front : List Char}
    (noStar : '*' ∉ front) (text : List Char) :
    removeCommentsFrom false true (front ++ text) = removeCommentsFrom false true text := by
  induction front with
  | nil => rfl
  | cons c front ih =>
      rw [List.mem_cons, not_or] at noStar
      rw [List.cons_append, removeCommentsFrom_blockComment,
        if_neg fun closes => noStar.1 closes.1.symm, ih noStar.2]

theorem removeCommentsFrom_code_append {front : List Char} (noSlash : '/' ∉ front)
    (text : List Char) :
    removeCommentsFrom false false (front ++ text) =
      front ++ removeCommentsFrom false false text := by
  induction front with
  | nil => rfl
  | cons c front ih =>
      rw [List.mem_cons, not_or] at noSlash
      rw [List.cons_append, removeCommentsFrom_code,
        if_neg fun opens => noSlash.1 opens.1.symm,
        if_neg fun opens => noSlash.1 opens.1.symm, ih noSlash.2, List.cons_append]

/-- Removing a comment removes the `/` that opens it. -/
theorem count_removeCommentsFrom_lt {text : List Char} (opens : OpensComment text) :
    (removeCommentsFrom false false text).count '/' < text.count '/' := by
  induction text with
  | nil => exact opens.elim
  | cons c rest ih =>
      have tailCount (sCmt mCmt : Bool) :
          (removeCommentsFrom sCmt mCmt rest.tail).count '/' ≤ rest.count '/' :=
        ((removeCommentsFrom_sublist sCmt mCmt rest.tail).trans
          (List.tail_sublist rest)).count_le '/'
      rw [removeCommentsFrom_code]
      split
      · rename_i line
        rw [line.1, List.count_cons_self]
        exact Nat.lt_succ_of_le (tailCount true false)
      · rename_i notLine
        split
        · rename_i block
          rw [block.1, List.count_cons_self]
          exact Nat.lt_succ_of_le (tailCount false true)
        · rename_i notBlock
          have later : OpensComment rest := by
            rcases opens with ⟨slash, line | block⟩ | later
            · exact absurd ⟨slash, line⟩ notLine
            · exact absurd ⟨slash, block⟩ notBlock
            · exact later
          have fewer := ih later
          simp only [List.count_cons]
          omega

/-- A text of less than `2 ^ 31` characters in which no comment opens is kept. -/
theorem removeComments_of_not_opensComment {prgm : List Char}
    (short : prgm.length < 2 ^ 31) (plain : ¬ OpensComment prgm) :
    removeComments prgm = prgm := by
  unfold removeComments
  rw [intLength_of_lt short, Int.toNat_natCast, List.take_length,
    removeCommentsFrom_of_not_opensComment plain]

end DroneEngage.CommentRemoval
