import DroneEngage.CommandLine

/-!
# Command lines that are written

Options are written as words: letters that share a hyphen, the last of them perhaps
with an argument, and names.  What a caller finds on a line of such words are the
options that were written, in their order and with their arguments, and the operands
are left.
-/

namespace DroneEngage.GetOptLong

open CText

/-- An option as it is meant. -/
inductive Use
  | letter (c : UInt8) (arg : Option CText)
  | long (name : CText) (arg : Option CText)

/-- Words of a command line.  An argument stands in the word of its option or in one of
its own. -/
inductive OptionWord
  | letters (flags : CText)
  | lettersWith (flags : CText) (c : UInt8) (arg : CText) (apart : Bool)
  | long (name : CText)
  | longWith (name arg : CText) (apart : Bool)

namespace OptionWord

def render : OptionWord → List CText
  | letters flags => [hyphen :: flags]
  | lettersWith flags c arg apart =>
      if apart then [hyphen :: (flags ++ [c]), arg] else [hyphen :: (flags ++ c :: arg)]
  | long name => [hyphen :: hyphen :: name]
  | longWith name arg apart =>
      if apart then [hyphen :: hyphen :: name, arg]
      else [hyphen :: hyphen :: (name ++ equalsSign :: arg)]

def uses : OptionWord → List Use
  | letters flags => flags.map fun c => .letter c none
  | lettersWith flags c arg _ => flags.map (fun c => .letter c none) ++ [.letter c (some arg)]
  | long name => [.long name none]
  | longWith name arg _ => [.long name (some arg)]

end OptionWord

/-- The first long option of a name, with its index. -/
def lookUp (longopts : List LongOption) (name : CText) : Option (LongOption × Nat) :=
  longopts.zipIdx.find? fun opt => opt.1.name = name

/-- A letter that is an option, with an argument or without one. -/
def IsLetter (optstring : CText) (c : UInt8) (withArg : Bool) : Prop :=
  ∃ oli, after c optstring = some oli ∧ (oli.head? = some colon ↔ withArg = true)

/-- A name that is an option and can be written. -/
structure IsName (longopts : List LongOption) (name : CText) (withArg : Bool) : Prop where
  given : name ≠ []
  plain : equalsSign ∉ name
  listed : ∃ opt i, lookUp longopts name = some (opt, i) ∧ opt.hasArg = withArg

/-- The letters begin with no hyphen, and an argument in the same word is not empty. -/
def OptionWord.Accepted (optstring : CText) (longopts : List LongOption) : OptionWord → Prop
  | letters flags =>
      flags ≠ [] ∧ flags.head? ≠ some hyphen ∧ ∀ c ∈ flags, IsLetter optstring c false
  | lettersWith flags c arg apart =>
      (flags ++ [c]).head? ≠ some hyphen ∧ (∀ c ∈ flags, IsLetter optstring c false) ∧
        IsLetter optstring c true ∧ (apart = false → arg ≠ [])
  | long name => IsName longopts name false
  | longWith name _ _ => IsName longopts name true

/-- What a caller finds after an option, if it found `before` last. -/
def Seen.next (longopts : List LongOption) (before : Seen) : Use → Seen
  | .letter c arg => { before with result := CText.toInt c, optarg := arg }
  | .long name arg =>
      match lookUp longopts name with
      | none => before
      | some (opt, i) =>
          match opt.flag with
          | none => { before with result := opt.val, optarg := arg, longindex := i }
          | some flag =>
              { result := 0
                optarg := arg
                longindex := i
                flags := Function.update before.flags flag opt.val }

/-- What a caller finds after each of some options. -/
def trace (longopts : List LongOption) : Seen → List Use → List Seen
  | _, [] => []
  | before, use :: uses =>
      before.next longopts use :: trace longopts (before.next longopts use) uses

/-- The calls that make a list of finds. -/
inductive Reads : GetOptLong → List Seen → GetOptLong → Prop
  | nil (g : GetOptLong) : Reads g [] g
  | cons {g middle last : GetOptLong} {result : Int} {seen : List Seen} :
      g.getoption = some (result, middle) → result ≠ -1 → Reads middle seen last →
      Reads g (middle.view result :: seen) last

variable {g middle last : GetOptLong}

theorem Reads.append {seen later : List Seen} (first : Reads g seen middle)
    (second : Reads middle later last) : Reads g (seen ++ later) last := by
  induction first with
  | nil => exact second
  | cons called goesOn _ ih => exact .cons called goesOn (ih second)

theorem Reads.calls {seen : List Seen} (reads : Reads g seen middle) {limit : Nat}
    (ended : middle.getoption = some (-1, last)) (enough : seen.length < limit) :
    GetOptLong.calls limit g = some (seen, last) := by
  induction reads generalizing limit with
  | nil g =>
      cases limit with
      | zero => exact absurd enough (Nat.not_lt_zero _)
      | succ limit =>
          rw [GetOptLong.calls, ended, Option.bind_some]
          rfl
  | cons called goesOn _ ih =>
      cases limit with
      | zero => exact absurd enough (Nat.not_lt_zero _)
      | succ limit =>
          rw [GetOptLong.calls, called, Option.bind_some, if_neg goesOn,
            ih ended (Nat.lt_of_succ_lt_succ enough)]
          rfl

/-- What the calls leave as it is, and that each of them gets on. -/
theorem Reads.length_le {seen : List Seen} (reads : Reads g seen last)
    (distinct : Distinct g.optstring g.longopts) :
    seen.length + last.remaining ≤ g.remaining := by
  induction reads with
  | nil => simp
  | cons called goesOn _ ih =>
      rcases getoption_cases called distinct with ⟨ended, -⟩ | ⟨-, advances⟩
      · exact absurd ended goesOn
      · rw [← advances.optstring, ← advances.longopts] at distinct
        have later := ih distinct
        have fewer := advances.remaining
        rw [List.length_cons]
        omega

/-- A caller that looks now finds what it found before. -/
def Shows (g : GetOptLong) (before : Seen) : Prop :=
  g.longindex = before.longindex ∧ g.flags = before.flags

/-- The calls from one state to another find some uses. -/
structure Follows (g : GetOptLong) (before : Seen) (uses : List Use) (next : GetOptLong) :
    Prop where
  reads : Reads g (trace g.longopts before uses) next
  argv : next.argv = g.argv
  optstring : next.optstring = g.optstring
  longopts : next.longopts = g.longopts
  shows : next.Shows (uses.foldl (Seen.next g.longopts) before)

variable {before : Seen} {next : GetOptLong}

theorem Follows.refl (shows : g.Shows before) : Follows g before [] g :=
  ⟨.nil g, rfl, rfl, rfl, shows⟩

theorem trace_append (longopts : List LongOption) (before : Seen) (uses later : List Use) :
    trace longopts before (uses ++ later) =
      trace longopts before uses ++
        trace longopts (uses.foldl (Seen.next longopts) before) later := by
  induction uses generalizing before with
  | nil => rfl
  | cons use uses ih => exact congrArg (List.cons _) (ih _)

theorem Follows.append {uses later : List Use} (first : Follows g before uses middle)
    (second : Follows middle (uses.foldl (Seen.next g.longopts) before) later next) :
    Follows g before (uses ++ later) next := by
  have reads := second.reads
  have shows := second.shows
  rw [first.longopts] at reads shows
  refine ⟨?_, second.argv.trans first.argv, second.optstring.trans first.optstring,
    second.longopts.trans first.longopts, ?_⟩
  · rw [trace_append]
    exact first.reads.append reads
  · rw [List.foldl_append]
    exact shows

theorem Follows.distinct {uses : List Use} (follows : Follows g before uses next)
    (distinct : Distinct g.optstring g.longopts) : Distinct next.optstring next.longopts := by
  rw [follows.optstring, follows.longopts]
  exact distinct

/-- One call that finds one use. -/
theorem Follows.single {use : Use} {result : Int} (called : g.getoption = some (result, next))
    (goesOn : result ≠ -1) (argv : next.argv = g.argv) (optstring : next.optstring = g.optstring)
    (longopts : next.longopts = g.longopts)
    (found : next.view result = before.next g.longopts use) :
    Follows g before [use] next := by
  refine ⟨?_, argv, optstring, longopts, ?_⟩
  · rw [trace, trace, ← found]
    exact .cons called goesOn (.nil next)
  · rw [List.foldl_cons, List.foldl_nil, ← found]
    exact ⟨rfl, rfl⟩

/-- The scan goes on at some letters of an argument, or at the next argument where no
letter is left; behind them are other arguments. -/
def Stands (g : GetOptLong) (place : CText) (rest : List CText) : Prop :=
  if place = [] then g.place = [] ∧ g.argv.drop g.optind = rest
  else g.getoption = g.shortOption place ∧ g.argv.drop (g.optind + 1) = rest

section Letters

variable {c : UInt8} {place : CText} {rest : List CText}

theorem getElem?_of_drop {args : List CText} {optind : Nat} {arg : CText}
    (left : args.drop optind = arg :: rest) :
    args[optind]? = some arg ∧ args.drop (optind + 1) = rest := by
  constructor
  · rw [← List.head?_drop, left, List.head?_cons]
  · rw [← List.drop_drop, left, List.drop_one, List.tail_cons]

theorem stands_of_place (given : g.place = place) (left : g.argv.drop (g.optind + 1) = rest)
    (further : place ≠ []) : g.Stands place rest := by
  rw [Stands, if_neg further, getoption, given, if_neg further]
  exact ⟨rfl, left⟩

theorem stands_of_idle (given : g.place = []) (left : g.argv.drop g.optind = rest) :
    g.Stands [] rest := by
  rw [Stands, if_pos rfl]
  exact ⟨given, left⟩

/-- An argument with one hyphen is scanned for letters. -/
theorem Stands.letters (stands : g.Stands [] ((hyphen :: place) :: rest)) (given : place ≠ [])
    (single : place.head? ≠ some hyphen) : g.Stands place rest := by
  rw [Stands, if_pos rfl] at stands
  obtain ⟨idle, left⟩ := stands
  obtain ⟨found, left⟩ := getElem?_of_drop left
  rw [Stands, if_neg given]
  refine ⟨?_, left⟩
  rw [getoption, if_pos idle, found]
  cases place with
  | nil => exact absurd rfl given
  | cons second more =>
      have different : second ≠ hyphen := fun same => single (congrArg some same)
      simp [different]

theorem IsLetter.ne {optstring : CText} {longopts : List LongOption} {withArg : Bool}
    (letter : IsLetter optstring c withArg) (distinct : Distinct optstring longopts) :
    CText.toInt c ≠ -1 := by
  obtain ⟨oli, found, -⟩ := letter
  exact toInt_ne fun same => distinct.letters (same ▸ mem_of_after found)

/-- A letter without an argument. -/
theorem Stands.letter (stands : g.Stands (c :: place) rest)
    (isLetter : IsLetter g.optstring c false) (distinct : Distinct g.optstring g.longopts)
    (shows : g.Shows before) :
    ∃ next, Follows g before [.letter c none] next ∧ next.Stands place rest := by
  rw [Stands, if_neg (List.cons_ne_nil _ _)] at stands
  obtain ⟨scanned, left⟩ := stands
  obtain ⟨oli, found, bare⟩ := id isLetter
  have plain : oli.head? ≠ some colon := fun same => Bool.noConfusion (bare.mp same)
  have called : g.getoption = some (CText.toInt c,
      { ({ g with optopt := CText.toInt c } : GetOptLong).pass place with optarg := none }) := by
    rw [scanned, shortOption]
    dsimp only
    rw [found]
    exact if_pos plain
  refine ⟨_, .single called (isLetter.ne distinct) rfl rfl rfl ?_, ?_⟩
  · rw [view, Seen.next, ← shows.1, ← shows.2]
    rfl
  · by_cases last : place = []
    · subst last
      exact stands_of_idle rfl left
    · refine stands_of_place rfl ?_ last
      rw [pass, if_neg last]
      exact left

/-- Letters without arguments, in front of others. -/
theorem Stands.letters_of_flags {flags : CText} (stands : g.Stands (flags ++ place) rest)
    (areLetters : ∀ c ∈ flags, IsLetter g.optstring c false)
    (distinct : Distinct g.optstring g.longopts) (shows : g.Shows before) :
    ∃ next, Follows g before (flags.map fun c => .letter c none) next ∧
      next.Stands place rest := by
  induction flags generalizing g before with
  | nil => exact ⟨g, .refl shows, stands⟩
  | cons c flags ih =>
      rw [List.forall_mem_cons] at areLetters
      obtain ⟨middle, first, standsMiddle⟩ := stands.letter areLetters.1 distinct shows
      have others := areLetters.2
      rw [← first.optstring] at others
      obtain ⟨next, second, standsNext⟩ :=
        ih standsMiddle others (first.distinct distinct) first.shows
      exact ⟨next, first.append second, standsNext⟩

/-- A letter with its argument in the same word. -/
theorem Stands.letterWith {arg : CText} (stands : g.Stands (c :: arg) rest) (given : arg ≠ [])
    (isLetter : IsLetter g.optstring c true) (distinct : Distinct g.optstring g.longopts)
    (shows : g.Shows before) :
    ∃ next, Follows g before [.letter c (some arg)] next ∧ next.Stands [] rest := by
  rw [Stands, if_neg (List.cons_ne_nil _ _)] at stands
  obtain ⟨scanned, left⟩ := stands
  obtain ⟨oli, found, takes⟩ := id isLetter
  have called : g.getoption = some (CText.toInt c,
      { g with
        optopt := CText.toInt c, optarg := some arg, place := [], optind := g.optind + 1 }) := by
    rw [scanned, shortOption]
    dsimp only
    rw [found]
    dsimp only
    rw [if_neg (not_not.mpr (takes.mpr rfl)), if_pos given]
  refine ⟨_, .single called (isLetter.ne distinct) rfl rfl rfl ?_, stands_of_idle rfl left⟩
  rw [view, Seen.next, ← shows.1, ← shows.2]

/-- A letter with its argument in the next word. -/
theorem Stands.letterApart {arg : CText} (stands : g.Stands [c] (arg :: rest))
    (isLetter : IsLetter g.optstring c true) (distinct : Distinct g.optstring g.longopts)
    (shows : g.Shows before) :
    ∃ next, Follows g before [.letter c (some arg)] next ∧ next.Stands [] rest := by
  rw [Stands, if_neg (List.cons_ne_nil _ _)] at stands
  obtain ⟨scanned, left⟩ := stands
  obtain ⟨argFound, left⟩ := getElem?_of_drop left
  obtain ⟨oli, found, takes⟩ := id isLetter
  have called : g.getoption = some (CText.toInt c,
      { g with
        optopt := CText.toInt c, optarg := some arg, place := [], optind := g.optind + 2 }) := by
    rw [scanned, shortOption]
    dsimp only
    rw [found]
    dsimp only
    rw [if_neg (not_not.mpr (takes.mpr rfl)), if_neg (not_not.mpr rfl), argFound]
  refine ⟨_, .single called (isLetter.ne distinct) rfl rfl rfl ?_, stands_of_idle rfl left⟩
  rw [view, Seen.next, ← shows.1, ← shows.2]

end Letters

section Names

variable {name : CText} {rest : List CText}

theorem name_append (plain : equalsSign ∉ name) {tail : CText}
    (cut : tail = [] ∨ tail.head? = some equalsSign) : CText.name (name ++ tail) = name := by
  have passes : ∀ c ∈ name, (c != equalsSign) = true := fun c member =>
    bne_iff_ne.mpr fun same => plain (same ▸ member)
  rw [CText.name, List.takeWhile_append_of_pos passes]
  cases tail with
  | nil => rw [List.takeWhile_nil, List.append_nil]
  | cons head tail =>
      rcases cut with absent | same
      · cases absent
      · obtain rfl : head = equalsSign := Option.some.inj same
        rw [List.takeWhile_cons_of_neg (by simp), List.append_nil]

/-- An argument with two hyphens and more is scanned for a name. -/
theorem Stands.getoption_of_long {place : CText}
    (stands : g.Stands [] ((hyphen :: hyphen :: place) :: rest)) (given : place ≠ []) :
    g.getoption = some (g.longOption place) := by
  rw [Stands, if_pos rfl] at stands
  obtain ⟨idle, left⟩ := stands
  rw [getoption, if_pos idle, (getElem?_of_drop left).1]
  simp [given]

/-- What `takeLong` makes of an option. -/
theorem follows_takeLong {opt : LongOption} {i optind : Nat} {arg : Option CText}
    (called : g.getoption = some (g.takeLong i opt arg optind))
    (found : lookUp g.longopts name = some (opt, i))
    (distinct : Distinct g.optstring g.longopts) (shows : g.Shows before)
    (left : g.argv.drop (optind + 1) = rest) :
    ∃ next, Follows g before [.long name arg] next ∧ next.Stands [] rest := by
  have listed : opt ∈ g.longopts :=
    List.mem_of_getElem? (List.mem_zipIdx_iff_getElem?.mp (List.mem_of_find?_eq_some found))
  rw [takeLong] at called
  cases given : opt.flag with
  | none =>
      rw [given] at called
      refine ⟨_, .single called (distinct.values opt listed) rfl rfl rfl ?_,
        stands_of_idle rfl left⟩
      rw [view, Seen.next, found, ← shows.2]
      dsimp only
      rw [given]
  | some flag =>
      rw [given] at called
      refine ⟨_, .single called (by decide) rfl rfl rfl ?_, stands_of_idle rfl left⟩
      rw [view, Seen.next, found, ← shows.2]
      dsimp only
      rw [given]

/-- A name without an argument. -/
theorem Stands.long (stands : g.Stands [] ((hyphen :: hyphen :: name) :: rest))
    (isName : IsName g.longopts name false) (distinct : Distinct g.optstring g.longopts)
    (shows : g.Shows before) :
    ∃ next, Follows g before [.long name none] next ∧ next.Stands [] rest := by
  obtain ⟨opt, i, found, bare⟩ := isName.listed
  have called := stands.getoption_of_long isName.given
  have same : CText.name name = name := by
    simpa using name_append isName.plain (.inl rfl)
  rw [longOption, same, show g.longopts.zipIdx.find? (fun opt => opt.1.name = name) =
    some (opt, i) from found] at called
  dsimp only at called
  rw [bare, if_neg Bool.false_ne_true] at called
  rw [Stands, if_pos rfl] at stands
  exact follows_takeLong called found distinct shows (getElem?_of_drop stands.2).2

/-- A name with its argument in the same word. -/
theorem Stands.longWith {arg : CText}
    (stands : g.Stands [] ((hyphen :: hyphen :: (name ++ equalsSign :: arg)) :: rest))
    (isName : IsName g.longopts name true) (distinct : Distinct g.optstring g.longopts)
    (shows : g.Shows before) :
    ∃ next, Follows g before [.long name (some arg)] next ∧ next.Stands [] rest := by
  obtain ⟨opt, i, found, takes⟩ := isName.listed
  have called := stands.getoption_of_long (by simp)
  have same : CText.name (name ++ equalsSign :: arg) = name :=
    name_append isName.plain (.inr rfl)
  rw [longOption, same, show g.longopts.zipIdx.find? (fun opt => opt.1.name = name) =
    some (opt, i) from found] at called
  dsimp only at called
  rw [takes, if_pos rfl, List.drop_left] at called
  rw [Stands, if_pos rfl] at stands
  exact follows_takeLong called found distinct shows (getElem?_of_drop stands.2).2

/-- A name with its argument in the next word. -/
theorem Stands.longApart {arg : CText}
    (stands : g.Stands [] ((hyphen :: hyphen :: name) :: arg :: rest))
    (isName : IsName g.longopts name true) (distinct : Distinct g.optstring g.longopts)
    (shows : g.Shows before) :
    ∃ next, Follows g before [.long name (some arg)] next ∧ next.Stands [] rest := by
  obtain ⟨opt, i, found, takes⟩ := isName.listed
  have called := stands.getoption_of_long isName.given
  have same : CText.name name = name := by
    simpa using name_append isName.plain (.inl rfl)
  rw [Stands, if_pos rfl] at stands
  obtain ⟨argFound, left⟩ := getElem?_of_drop (getElem?_of_drop stands.2).2
  rw [longOption, same, show g.longopts.zipIdx.find? (fun opt => opt.1.name = name) =
    some (opt, i) from found] at called
  dsimp only at called
  rw [takes, if_pos rfl, List.drop_length, argFound] at called
  exact follows_takeLong called found distinct shows left

end Names

/-- A word is read as it was meant. -/
theorem Stands.word {word : OptionWord} {rest : List CText}
    (stands : g.Stands [] (word.render ++ rest)) (accepted : word.Accepted g.optstring g.longopts)
    (distinct : Distinct g.optstring g.longopts) (shows : g.Shows before) :
    ∃ next, Follows g before word.uses next ∧ next.Stands [] rest := by
  cases word with
  | letters flags =>
      obtain ⟨given, single, areLetters⟩ := accepted
      have scanned := stands.letters given single
      rw [← List.append_nil flags] at scanned
      exact scanned.letters_of_flags areLetters distinct shows
  | lettersWith flags c arg apart =>
      obtain ⟨single, areLetters, isLetter, given⟩ := accepted
      -- the letters in front are passed first, then the one with the argument
      have both {place : CText} {behind : List CText} (scanned : g.Stands (flags ++ place) behind)
          (last : ∀ {middle : GetOptLong} {seen : Seen}, middle.Stands place behind →
            IsLetter middle.optstring c true → Distinct middle.optstring middle.longopts →
            middle.Shows seen →
              ∃ next, Follows middle seen [.letter c (some arg)] next ∧ next.Stands [] rest) :
          ∃ next, Follows g before (OptionWord.lettersWith flags c arg apart).uses next ∧
            next.Stands [] rest := by
        obtain ⟨middle, first, standsMiddle⟩ :=
          scanned.letters_of_flags areLetters distinct shows
        have isLetterMiddle := isLetter
        rw [← first.optstring] at isLetterMiddle
        obtain ⟨next, second, standsNext⟩ :=
          last standsMiddle isLetterMiddle (first.distinct distinct) first.shows
        exact ⟨next, first.append second, standsNext⟩
      cases apart with
      | true =>
          exact both (stands.letters (by simp) single) fun standing isLetter distinct shows =>
            standing.letterApart isLetter distinct shows
      | false =>
          have sameHead : (flags ++ c :: arg).head? = (flags ++ [c]).head? := by
            cases flags <;> rfl
          exact both (stands.letters (by simp) (sameHead ▸ single))
            fun standing isLetter distinct shows =>
              standing.letterWith (given rfl) isLetter distinct shows
  | long name => exact stands.long accepted distinct shows
  | longWith name arg apart =>
      cases apart with
      | true => exact stands.longApart accepted distinct shows
      | false => exact stands.longWith accepted distinct shows

/-- Words are read one after the other. -/
theorem Stands.words {words : List OptionWord} {rest : List CText}
    (stands : g.Stands [] (words.flatMap OptionWord.render ++ rest))
    (accepted : ∀ word ∈ words, word.Accepted g.optstring g.longopts)
    (distinct : Distinct g.optstring g.longopts) (shows : g.Shows before) :
    ∃ next, Follows g before (words.flatMap OptionWord.uses) next ∧ next.Stands [] rest := by
  induction words generalizing g before with
  | nil => exact ⟨g, .refl shows, stands⟩
  | cons word words ih =>
      rw [List.forall_mem_cons] at accepted
      rw [List.flatMap_cons, List.append_assoc] at stands
      obtain ⟨middle, first, standsMiddle⟩ := stands.word accepted.1 distinct shows
      have others := accepted.2
      rw [← first.optstring, ← first.longopts] at others
      obtain ⟨next, second, standsNext⟩ :=
        ih standsMiddle others (first.distinct distinct) first.shows
      exact ⟨next, first.append second, standsNext⟩

/-- The operands, behind two hyphens where these are written. -/
def operandsBehind (separated : Bool) (operands : List CText) : List CText :=
  if separated then [hyphen, hyphen] :: operands else operands

theorem Stands.ended {separated : Bool} {operands : List CText}
    (stands : g.Stands [] (operandsBehind separated operands))
    (plain : separated = false → ∀ first ∈ operands.head?, first.head? ≠ some hyphen) :
    ∃ last, g.getoption = some (-1, last) ∧ last.argv.drop last.optind = operands := by
  rw [Stands, if_pos rfl] at stands
  obtain ⟨idle, left⟩ := stands
  rw [getoption, if_pos idle]
  cases separated with
  | true =>
      obtain ⟨found, behind⟩ := getElem?_of_drop left
      rw [found]
      exact ⟨{ g with optind := g.optind + 1 }, rfl, behind⟩
  | false =>
      cases operands with
      | nil =>
          have none : g.argv[g.optind]? = none :=
            List.getElem?_eq_none (List.drop_eq_nil_iff.mp left)
          rw [none]
          exact ⟨g, rfl, left⟩
      | cons operand operands =>
          have other := plain rfl operand rfl
          rw [(getElem?_of_drop left).1]
          cases operand with
          | nil => exact ⟨g, rfl, left⟩
          | cons head tail =>
              have different : head ≠ hyphen := fun same => other (congrArg some same)
              dsimp only
              rw [if_pos different]
              exact ⟨g, rfl, left⟩

/-- A command line of words. -/
def lineOf (program : CText) (words : List OptionWord) (separated : Bool)
    (operands : List CText) : List CText :=
  program :: (words.flatMap OptionWord.render ++ operandsBehind separated operands)

/-- What a caller finds before the first call. -/
def Seen.initial : Seen where
  result := 0
  optarg := none
  longindex := -1
  flags := fun _ => 0

/-- What a caller finds on a line of words are the options that these are meant for, in
order and with their arguments, and then the operands. -/
theorem options_of_words {optstring : CText} {longopts : List LongOption}
    (distinct : Distinct optstring longopts) {words : List OptionWord}
    (accepted : ∀ word ∈ words, word.Accepted optstring longopts) (program : CText)
    {separated : Bool} {operands : List CText}
    (plain : separated = false → ∀ first ∈ operands.head?, first.head? ≠ some hyphen) :
    ∃ last,
      (new (lineOf program words separated operands) optstring longopts).options =
        some (trace longopts .initial (words.flatMap OptionWord.uses), last) ∧
      last.argv.drop last.optind = operands := by
  have idle : (new (lineOf program words separated operands) optstring longopts).Stands []
      (words.flatMap OptionWord.render ++ operandsBehind separated operands) :=
    stands_of_idle rfl rfl
  have shows : (new (lineOf program words separated operands) optstring longopts).Shows
      .initial := ⟨rfl, rfl⟩
  obtain ⟨next, follows, standsNext⟩ := idle.words accepted distinct shows
  obtain ⟨last, ended, left⟩ := standsNext.ended plain
  have bound := follows.reads.length_le distinct
  exact ⟨last, follows.reads.calls ended (by omega), left⟩

/-- Two letters with an argument, a name with one and a name without one. -/
def serverWords : List OptionWord :=
  [ .lettersWith (ofText "v") 112 (ofText "80") true, .longWith (ofText "port") (ofText "90") false,
    .long (ofText "verbose") ]

theorem serverWords_accepted :
    ∀ word ∈ serverWords, word.Accepted (ofText "vp:") [verboseOption, portOption] := by
  have verboseLetter : IsLetter (ofText "vp:") 118 false := ⟨ofText "p:", rfl, by decide⟩
  have portLetter : IsLetter (ofText "vp:") 112 true := ⟨ofText ":", rfl, by decide⟩
  rw [serverWords, List.forall_mem_cons, List.forall_mem_cons, List.forall_mem_singleton]
  refine ⟨⟨by decide, ?_, portLetter, nofun⟩, ⟨by decide, by decide, portOption, 1, rfl, rfl⟩,
    ⟨by decide, by decide, verboseOption, 0, rfl, rfl⟩⟩
  intro c member
  obtain rfl := List.mem_singleton.mp member
  exact verboseLetter

theorem options_of_words_server :
    ∃ last,
      (new (lineOf (ofText "module") serverWords false [ofText "file"]) (ofText "vp:")
        [verboseOption, portOption]).options =
          some (trace [verboseOption, portOption] .initial
            (serverWords.flatMap OptionWord.uses), last) ∧
      last.argv.drop last.optind = [ofText "file"] := by
  refine options_of_words ⟨by decide, ?_⟩ serverWords_accepted _ ?_
  · simp only [List.forall_mem_cons]
    exact ⟨by decide, by decide, nofun⟩
  · rintro - first ⟨⟩
    decide

end DroneEngage.GetOptLong
