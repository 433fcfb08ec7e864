import DroneEngage.CommentGrammar
import DroneEngage.CommentRemoval

/-!
# What comment removal keeps

`removeComments` keeps the code of a text: its flags tell where a comment of the
grammar begins and ends.  Nothing that is kept opens a comment again.
-/

namespace DroneEngage.CommentRemoval

open CommentGrammar

/-- The loop of `removeComments` again, with what it appends to `res`: the index `i`
and `prgm[i]`. -/
def keptFrom : Nat → Bool → Bool → List Char → List (Nat × Char)
  | _, _, _, [] => []
  | i, sCmt, mCmt, [c] =>
      if sCmt || mCmt then [] else [(i, c)]
  | i, sCmt, mCmt, c :: next :: rest =>
      if sCmt ∧ c = '\n' then keptFrom (i + 1) false mCmt (next :: rest)
      else if mCmt ∧ c = '*' ∧ next = '/' then keptFrom (i + 2) sCmt false rest
      else if sCmt ∨ mCmt then keptFrom (i + 1) sCmt mCmt (next :: rest)
      else if c = '/' ∧ next = '/' then keptFrom (i + 2) true mCmt rest
      else if c = '/' ∧ next = '*' then keptFrom (i + 2) sCmt true rest
      else (i, c) :: keptFrom (i + 1) sCmt mCmt (next :: rest)

/-- The characters `prgm[i]` with `i < n`. -/
def reached (prgm : List Char) : List Char :=
  prgm.take (intLength prgm).toNat

/-- The characters that `removeComments` keeps, with their indices. -/
def kept (prgm : List Char) : List (Nat × Char) :=
  keptFrom 0 false false (reached prgm)

theorem keptFrom_map_snd (i : Nat) (sCmt mCmt : Bool) (text : List Char) :
    (keptFrom i sCmt mCmt text).map Prod.snd = removeCommentsFrom sCmt mCmt text := by
  fun_induction keptFrom i sCmt mCmt text with
  | case1 => simp
  | case2 sCmt mCmt i c inside => simp [removeCommentsFrom, inside]
  | case3 sCmt mCmt i c outside => simp [removeCommentsFrom, outside]
  | case4 _ _ _ _ _ _ newline ih => rw [removeCommentsFrom, if_pos newline, ih]
  | case5 _ _ _ _ _ _ newline closes ih =>
      rw [removeCommentsFrom, if_neg newline, if_pos closes, ih]
  | case6 _ _ _ _ _ _ newline closes inside ih =>
      rw [removeCommentsFrom, if_neg newline, if_neg closes, if_pos inside, ih]
  | case7 _ _ _ _ _ _ newline closes outside line ih =>
      rw [removeCommentsFrom, if_neg newline, if_neg closes, if_neg outside, if_pos line, ih]
  | case8 _ _ _ _ _ _ newline closes outside line block ih =>
      rw [removeCommentsFrom, if_neg newline, if_neg closes, if_neg outside, if_neg line,
        if_pos block, ih]
  | case9 _ _ _ _ _ _ newline closes outside line block ih =>
      rw [removeCommentsFrom, if_neg newline, if_neg closes, if_neg outside, if_neg line,
        if_neg block, List.map_cons, ih]

theorem kept_map_snd (prgm : List Char) : (kept prgm).map Prod.snd = removeComments prgm :=
  keptFrom_map_snd 0 false false (reached prgm)

section Steps

variable (i : Nat) (c : Char) (rest : List Char)

theorem keptFrom_lineComment :
    keptFrom i true false (c :: rest) = keptFrom (i + 1) (decide (c ≠ '\n')) false rest := by
  cases rest with
  | nil => simp [keptFrom]
  | cons next rest => by_cases newline : c = '\n' <;> simp [keptFrom, newline]

theorem keptFrom_blockComment :
    keptFrom i false true (c :: rest) =
      if c = '*' ∧ rest.head? = some '/' then keptFrom (i + 2) false false rest.tail
      else keptFrom (i + 1) false true rest := by
  cases rest with
  | nil => simp [keptFrom]
  | cons next rest => simp [keptFrom]

theorem keptFrom_code (plain : ¬ Opens c rest) :
    keptFrom i false false (c :: rest) = (i, c) :: keptFrom (i + 1) false false rest := by
  unfold Opens at plain
  cases rest with
  | nil => simp [keptFrom]
  | cons next rest => grind [keptFrom]

end Steps

theorem keptFrom_line {body : List Char} (noNewline : '\n' ∉ body) (i : Nat)
    (rest : List Char) :
    keptFrom i true false (body ++ '\n' :: rest) =
      keptFrom (i + body.length + 1) false false rest := by
  induction body generalizing i with
  | nil => simp [keptFrom_lineComment]
  | cons c body ih =>
      rw [List.mem_cons, not_or] at noNewline
      rw [List.cons_append, keptFrom_lineComment, decide_eq_true (Ne.symm noNewline.1),
        ih noNewline.2, List.length_cons, Nat.add_assoc i 1, Nat.add_comm 1]

theorem keptFrom_openLine {body : List Char} (noNewline : '\n' ∉ body) (i : Nat) :
    keptFrom i true false body = [] := by
  induction body generalizing i with
  | nil => simp [keptFrom]
  | cons c body ih =>
      rw [List.mem_cons, not_or] at noNewline
      rw [keptFrom_lineComment, decide_eq_true (Ne.symm noNewline.1), ih noNewline.2]

theorem keptFrom_block {body : List Char} (noClose : ¬ ['*', '/'] <:+: body) (i : Nat)
    (rest : List Char) :
    keptFrom i false true (body ++ '*' :: '/' :: rest) =
      keptFrom (i + body.length + 2) false false rest := by
  induction body generalizing i with
  | nil => simp [keptFrom_blockComment]
  | cons c body ih =>
      rw [pair_infix_cons_iff, not_or] at noClose
      have goesOn : ¬ (c = '*' ∧ (body ++ '*' :: '/' :: rest).head? = some '/') := by
        rintro ⟨star, slash⟩
        cases body with
        | nil => cases slash
        | cons d body => exact noClose.1 ⟨star, slash⟩
      rw [List.cons_append, keptFrom_blockComment, if_neg goesOn, ih noClose.2,
        List.length_cons, Nat.add_assoc i 1, Nat.add_comm 1]

theorem keptFrom_openBlock {body : List Char} (noClose : ¬ ['*', '/'] <:+: body) (i : Nat) :
    keptFrom i false true body = [] := by
  induction body generalizing i with
  | nil => simp [keptFrom]
  | cons c body ih =>
      rw [pair_infix_cons_iff, not_or] at noClose
      rw [keptFrom_blockComment, if_neg noClose.1, ih noClose.2]

/-- The loop keeps the code of a reading, each character at its place. -/
theorem keptFrom_eq {text : List Char} {pieces : List Piece} (reading : Reading text pieces)
    (i : Nat) : keptFrom i false false text = codePlaces i pieces := by
  induction reading generalizing i with
  | nil => simp [keptFrom, codePlaces]
  | code plain _ ih => rw [keptFrom_code _ _ _ plain, ih]; rfl
  | @line body rest pieces noNewline _ ih =>
      have opened : keptFrom i false false ((Piece.line body true).text ++ rest) =
          keptFrom (i + 2) true false (body ++ '\n' :: rest) := by
        simp [Piece.text, keptFrom]
      have place : i + 2 + body.length + 1 = i + (Piece.line body true).text.length := by
        simp only [Piece.text, if_true, List.length_append, List.length_cons, List.length_nil]
        omega
      rw [opened, keptFrom_line noNewline, ih, place]
      rfl
  | @openLine body noNewline =>
      have opened : keptFrom i false false (Piece.line body false).text =
          keptFrom (i + 2) true false body := by
        simp [Piece.text, keptFrom]
      rw [opened, keptFrom_openLine noNewline]
      rfl
  | @block body rest pieces noClose _ ih =>
      have opened : keptFrom i false false ((Piece.block body true).text ++ rest) =
          keptFrom (i + 2) false true (body ++ '*' :: '/' :: rest) := by
        simp [Piece.text, keptFrom]
      have place : i + 2 + body.length + 2 = i + (Piece.block body true).text.length := by
        simp only [Piece.text, if_true, List.length_append, List.length_cons, List.length_nil]
        omega
      rw [opened, keptFrom_block noClose, ih, place]
      rfl
  | @openBlock body noClose =>
      have opened : keptFrom i false false (Piece.block body false).text =
          keptFrom (i + 2) false true body := by
        simp [Piece.text, keptFrom]
      rw [opened, keptFrom_openBlock noClose]
      rfl

theorem removeComments_eq_codeOf {prgm : List Char} {pieces : List Piece}
    (reading : Reading (reached prgm) pieces) : removeComments prgm = codeOf pieces := by
  rw [← kept_map_snd, kept, keptFrom_eq reading, codePlaces_map_snd]

section Finality

theorem opensComment_iff {text : List Char} :
    OpensComment text ↔ ['/', '/'] <:+: text ∨ ['/', '*'] <:+: text := by
  induction text with
  | nil => simp [OpensComment]
  | cons c rest ih =>
      rw [OpensComment, ih, pair_infix_cons_iff, pair_infix_cons_iff, and_or_left]
      exact or_or_or_comm

/-- In a text that is all code no comment opens. -/
theorem not_opensComment_of_reading {text : List Char}
    (reading : Reading text (text.map .code)) : ¬ OpensComment text := by
  induction text with
  | nil => exact id
  | cons c rest ih =>
      generalize whole : c :: rest = text, split : (c :: rest).map Piece.code = pieces
        at reading
      cases reading with
      | nil => cases whole
      | code plain later =>
          obtain ⟨rfl, rfl⟩ := List.cons.inj whole
          obtain ⟨-, rfl⟩ := List.cons.inj split
          exact not_or.mpr ⟨plain, ih later⟩
      | line _ _ | openLine _ | block _ _ | openBlock _ => cases (List.cons.inj split).1

theorem not_opensComment_removeComments (prgm : List Char) :
    ¬ OpensComment (removeComments prgm) := by
  obtain ⟨pieces, reading⟩ := Reading.exists (reached prgm)
  rw [removeComments_eq_codeOf reading]
  exact not_opensComment_of_reading reading.codeOf_code

theorem length_removeComments_lt (prgm : List Char) : (removeComments prgm).length < 2 ^ 31 := by
  have fewer := (removeCommentsFrom_sublist false false (reached prgm)).length_le
  have short : (reached prgm).length ≤ (intLength prgm).toNat := List.length_take_le _ _
  have bound := intLength_toNat_lt prgm
  unfold removeComments
  unfold reached at fewer short
  omega

/-- What is left has no comment, is left again, and is all of a text without one. -/
def RemovalFinal (prgm : List Char) : Prop :=
  (¬ ['/', '/'] <:+: removeComments prgm ∧ ¬ ['/', '*'] <:+: removeComments prgm) ∧
    removeComments (removeComments prgm) = removeComments prgm ∧
    (¬ ['/', '/'] <:+: prgm ∧ ¬ ['/', '*'] <:+: prgm → removeComments prgm = prgm)

/-- Removal is final unless a text without comments is too long for an `int`. -/
theorem removalFinal_iff (prgm : List Char) :
    RemovalFinal prgm ↔
      prgm.length < 2 ^ 31 ∨ ['/', '/'] <:+: prgm ∨ ['/', '*'] <:+: prgm := by
  have clean := not_opensComment_removeComments prgm
  have short := length_removeComments_lt prgm
  have again := removeComments_of_not_opensComment short clean
  rw [opensComment_iff, not_or] at clean
  constructor
  · rintro ⟨-, -, whole⟩
    by_contra fails
    rw [not_or, not_or] at fails
    rw [whole fails.2] at short
    exact fails.1 short
  · intro holds
    refine ⟨clean, again, fun plain => ?_⟩
    have fits := holds.resolve_right (not_or.mpr plain)
    apply removeComments_of_not_opensComment fits
    rw [opensComment_iff]
    exact not_or.mpr plain

/-- Of 2 GiB of blanks nothing is left. -/
theorem removalFinal_fails : ¬ RemovalFinal (List.replicate (2 ^ 31) ' ') := by
  rintro ⟨-, -, whole⟩
  have plain (second : Char) : ¬ ['/', second] <:+: List.replicate (2 ^ 31) ' ' := by
    intro opens
    have slash := opens.subset List.mem_cons_self
    cases List.eq_of_mem_replicate slash
  have short := length_removeComments_lt (List.replicate (2 ^ 31) ' ')
  rw [whole ⟨plain '/', plain '*'⟩, List.length_replicate] at short
  exact Nat.lt_irrefl _ short

end Finality

end DroneEngage.CommentRemoval
