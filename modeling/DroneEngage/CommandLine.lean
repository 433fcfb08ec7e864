import Mathlib.Data.List.Infix
import Mathlib.Data.List.TakeWhile
import Mathlib.Logic.Function.Basic

/-!
# Options of a command line

The parser looks at one argument at a time.  A scanning position is kept within an
argument that starts with one hyphen, so that several letters may share it.  Texts
are those of C, without the zero at their end.
-/

namespace DroneEngage

abbrev CText :=
  List UInt8

namespace CText

def hyphen : UInt8 := 45

def colon : UInt8 := 58

def equalsSign : UInt8 := 61

def questionMark : UInt8 := 63

/-- `(int) c`, where `char` is signed -/
def toInt (c : UInt8) : Int :=
  c.toInt8.toInt

/-- `strchr`, and what follows the character -/
def after (c : UInt8) : CText → Option CText
  | [] => none
  | head :: rest => if head = c then some rest else after c rest

/-- `strcspn(place, "=")` characters of a text -/
def name (place : CText) : CText :=
  place.takeWhile (· != equalsSign)

end CText

open CText

/-- `GetOptLong::option`; a flag is one of the variables of the caller. -/
structure LongOption where
  name : CText
  hasArg : Bool
  flag : Option Nat
  val : Int

structure GetOptLong where
  argv : List CText
  optstring : CText
  longopts : List LongOption
  optind : Nat
  optopt : Int
  longindex : Int
  optarg : Option CText
  place : CText
  /-- The variables that the flags point to. -/
  flags : Nat → Int

namespace GetOptLong

/-- The constructor. -/
def new (argv : List CText) (optstring : CText) (longopts : List LongOption) : GetOptLong where
  argv := argv
  optstring := optstring
  longopts := longopts
  optind := 1
  optopt := 0
  longindex := -1
  optarg := none
  place := []
  flags := fun _ => 0

def badCh : Int :=
  CText.toInt questionMark

def badArg : Int :=
  CText.toInt colon

variable (g : GetOptLong)

/-- What is returned for an option whose argument is missing. -/
def missing : Int :=
  if g.optstring.head? = some colon then badArg else badCh

/-- The option is taken, with the argument that it was given. -/
def takeLong (i : Nat) (opt : LongOption) (optarg : Option CText) (optind : Nat) :
    Int × GetOptLong :=
  let taken :=
    { g with optarg := optarg, optind := optind + 1, longindex := i, place := [] }
  match opt.flag with
  | none => (opt.val, taken)
  | some flag => (0, { taken with flags := Function.update g.flags flag opt.val })

/-- `getoption` at an argument that starts with `--` and goes on with `place`. -/
def longOption (place : CText) : Int × GetOptLong :=
  match g.longopts.zipIdx.find? fun opt => opt.1.name = place.name with
  | none => (badCh, { g with place := [], optind := g.optind + 1 })
  | some (opt, i) =>
      if opt.hasArg then
        match place.drop place.name.length with
        | _ :: arg => g.takeLong i opt (some arg) g.optind
        | [] =>
            match g.argv[g.optind + 1]? with
            | some arg => g.takeLong i opt (some arg) (g.optind + 1)
            | none =>
                -- with a colon the place stays, and the name is scanned for letters
                if g.optstring.head? = some colon then (badArg, { g with place := place })
                else (badCh, { g with place := [], optind := g.optind + 1 })
      else g.takeLong i opt none g.optind

/-- Go on in the argument, or to the next one. -/
def pass (rest : CText) : GetOptLong :=
  { g with place := rest, optind := if rest = [] then g.optind + 1 else g.optind }

/-- `getoption` at a letter; none where it reads beyond the end of a text. -/
def shortOption : CText → Option (Int × GetOptLong)
  | [] => none
  | c :: rest =>
      let g := { g with optopt := CText.toInt c }
      match after c g.optstring with
      | none => some (badCh, g.pass rest)
      | some oli =>
          if oli.head? ≠ some colon then
            some (CText.toInt c, { g.pass rest with optarg := none })
          else if rest ≠ [] then
            some (CText.toInt c,
              { g with optarg := some rest, place := [], optind := g.optind + 1 })
          else
            match g.argv[g.optind + 1]? with
            | none => some (g.missing, { g with place := [], optind := g.optind + 1 })
            | some arg =>
                some (CText.toInt c,
                  { g with optarg := some arg, place := [], optind := g.optind + 2 })

def getoption : Option (Int × GetOptLong) :=
  if g.place = [] then
    match g.argv[g.optind]? with
    | none => some (-1, g)
    | some [] => some (-1, g)
    | some (first :: place) =>
        if first ≠ hyphen then some (-1, g)
        else
          match place with
          | second :: more =>
              if second ≠ hyphen then g.shortOption (second :: more)
              else if more = [] then some (-1, { g with optind := g.optind + 1 })
              else some (g.longOption more)
          | [] => g.shortOption []
  else g.shortOption g.place

/-- The characters that are left in some arguments, with the end of each. -/
def cost : List CText → Nat
  | [] => 0
  | arg :: args => arg.length + 1 + cost args

/-- The characters that are left to scan. -/
def remaining : Nat :=
  if g.place = [] then cost (g.argv.drop g.optind)
  else g.place.length + cost (g.argv.drop (g.optind + 1))

/-- What a call leaves as it is, and that it gets on: less than `limit` is left. -/
structure Advances (limit : Nat) (next : GetOptLong) : Prop where
  argv : next.argv = g.argv
  optstring : next.optstring = g.optstring
  longopts : next.longopts = g.longopts
  remaining : next.remaining < limit

/-- No option is taken for the end. -/
structure Distinct (optstring : CText) (longopts : List LongOption) : Prop where
  letters : 255 ∉ optstring
  values : ∀ opt ∈ longopts, opt.val ≠ -1

variable {g} {next : GetOptLong} {result : Int}

theorem cost_drop_le (args : List CText) {place later : Nat} (order : place ≤ later) :
    cost (args.drop later) ≤ cost (args.drop place) := by
  induction args generalizing place later with
  | nil => simp
  | cons arg args ih =>
      cases place with
      | zero =>
          cases later with
          | zero => exact le_rfl
          | succ later =>
              have further := ih (Nat.zero_le later)
              rw [List.drop_zero] at further
              rw [List.drop_succ_cons, List.drop_zero, cost]
              omega
      | succ place =>
          cases later with
          | zero => omega
          | succ later => exact ih (Nat.le_of_succ_le_succ order)

theorem cost_drop_of_getElem? {args : List CText} {place : Nat} {arg : CText}
    (found : args[place]? = some arg) :
    cost (args.drop place) = arg.length + 1 + cost (args.drop (place + 1)) := by
  obtain ⟨within, rfl⟩ := List.getElem?_eq_some_iff.mp found
  rw [List.drop_eq_getElem_cons within, cost]

theorem toInt_ne {c : UInt8} (apart : c ≠ 255) : CText.toInt c ≠ -1 := by
  intro same
  have signed : c.toInt8 = (255 : UInt8).toInt8 := Int8.toInt_inj.mp (same.trans (by decide))
  exact apart (congrArg Int8.toUInt8 signed)

theorem badCh_ne : badCh ≠ -1 := by
  decide

theorem missing_ne : g.missing ≠ -1 := by
  rw [missing]
  split <;> decide

theorem mem_of_after {c : UInt8} {text rest : CText} (found : after c text = some rest) :
    c ∈ text := by
  induction text with
  | nil => cases found
  | cons head text ih =>
      rw [after] at found
      split at found
      · rename_i same
        exact same ▸ List.mem_cons_self
      · exact List.mem_cons_of_mem _ (ih found)

/-- The next argument is reached. -/
theorem Advances.toArgument {limit : Nat} (argv : next.argv = g.argv)
    (optstring : next.optstring = g.optstring) (longopts : next.longopts = g.longopts)
    (place : next.place = []) (further : g.optind + 1 ≤ next.optind)
    (enough : cost (g.argv.drop (g.optind + 1)) < limit) : g.Advances limit next := by
  refine ⟨argv, optstring, longopts, ?_⟩
  rw [GetOptLong.remaining, if_pos place, argv]
  exact (cost_drop_le _ further).trans_lt enough

/-- A letter is passed. -/
theorem Advances.pass {limit : Nat} {rest : CText}
    (enough : rest.length + 1 + cost (g.argv.drop (g.optind + 1)) ≤ limit) :
    g.Advances limit (g.pass rest) := by
  by_cases last : rest = []
  · refine .toArgument rfl rfl rfl last ?_ (by omega)
    rw [GetOptLong.pass, if_pos last]
  · refine ⟨rfl, rfl, rfl, ?_⟩
    rw [GetOptLong.remaining, GetOptLong.pass, if_neg last, if_neg last]
    change rest.length + cost (g.argv.drop (g.optind + 1)) < limit
    omega

/-- A letter gets on, and reports the end only where it is the end's own. -/
theorem shortOption_advances {place : CText} (scanned : g.shortOption place = some (result, next))
    {limit : Nat} (enough : place.length + cost (g.argv.drop (g.optind + 1)) ≤ limit)
    (distinct : Distinct g.optstring g.longopts) :
    result ≠ -1 ∧ g.Advances limit next := by
  cases place with
  | nil => cases scanned
  | cons c rest =>
      rw [List.length_cons] at enough
      have passed := Advances.pass enough
      rw [shortOption] at scanned
      split at scanned
      · cases scanned
        exact ⟨badCh_ne, passed.argv, passed.optstring, passed.longopts, passed.remaining⟩
      · rename_i oli found
        have letter : CText.toInt c ≠ -1 :=
          toInt_ne fun same => distinct.letters (same ▸ mem_of_after found)
        split at scanned
        · cases scanned
          exact ⟨letter, passed.argv, passed.optstring, passed.longopts, passed.remaining⟩
        · split at scanned
          · cases scanned
            exact ⟨letter, .toArgument rfl rfl rfl rfl le_rfl (by omega)⟩
          · split at scanned
            · cases scanned
              exact ⟨missing_ne, .toArgument rfl rfl rfl rfl le_rfl (by omega)⟩
            · cases scanned
              exact ⟨letter, .toArgument rfl rfl rfl rfl (Nat.le_succ _) (by omega)⟩

/-- A name gets on. -/
theorem longOption_advances {place : CText} {limit : Nat} (given : place ≠ [])
    (enough : place.length + cost (g.argv.drop (g.optind + 1)) < limit)
    (distinct : Distinct g.optstring g.longopts) :
    (g.longOption place).1 ≠ -1 ∧ g.Advances limit (g.longOption place).2 := by
  have taken (i : Nat) {opt : LongOption} (listed : opt ∈ g.longopts) (optarg : Option CText)
      {optind : Nat} (further : g.optind ≤ optind) :
      (g.takeLong i opt optarg optind).1 ≠ -1 ∧
        g.Advances limit (g.takeLong i opt optarg optind).2 := by
    rw [takeLong]
    split
    · exact ⟨distinct.values opt listed,
        .toArgument rfl rfl rfl rfl (Nat.succ_le_succ further) (by omega)⟩
    · exact ⟨(by decide : (0 : Int) ≠ -1),
        .toArgument rfl rfl rfl rfl (Nat.succ_le_succ further) (by omega)⟩
  rw [longOption]
  split
  · exact ⟨badCh_ne, .toArgument rfl rfl rfl rfl le_rfl (by omega)⟩
  · rename_i opt i found
    have listed : opt ∈ g.longopts :=
      List.mem_of_getElem? (List.mem_zipIdx_iff_getElem?.mp (List.mem_of_find?_eq_some found))
    split
    · split
      · exact taken i listed _ le_rfl
      · split
        · exact taken i listed _ (Nat.le_succ _)
        · split
          · refine ⟨(by decide : badArg ≠ -1), rfl, rfl, rfl, ?_⟩
            rw [remaining, if_neg given]
            exact enough
          · exact ⟨badCh_ne, .toArgument rfl rfl rfl rfl le_rfl (by omega)⟩
    · exact taken i listed _ le_rfl

/-- The options end here: behind the last argument, before one that starts with no
hyphen, or behind two hyphens. -/
inductive Ends (g : GetOptLong) : GetOptLong → Prop
  | last : g.argv[g.optind]? = none → Ends g g
  | operand (arg : CText) :
      g.argv[g.optind]? = some arg → arg.head? ≠ some hyphen → Ends g g
  | separator :
      g.argv[g.optind]? = some [hyphen, hyphen] → Ends g { g with optind := g.optind + 1 }

/-- A call finds the end of the options, or gets on. -/
theorem getoption_cases (called : g.getoption = some (result, next))
    (distinct : Distinct g.optstring g.longopts) :
    (result = -1 ∧ g.place = [] ∧ g.Ends next) ∨
      (result ≠ -1 ∧ g.Advances g.remaining next) := by
  rw [getoption] at called
  split at called
  · rename_i idle
    split at called
    · rename_i none
      cases called
      exact .inl ⟨rfl, idle, .last none⟩
    · rename_i empty
      cases called
      exact .inl ⟨rfl, idle, .operand [] empty nofun⟩
    · rename_i first place found
      have left : g.remaining = place.length + 1 + 1 + cost (g.argv.drop (g.optind + 1)) := by
        rw [remaining, if_pos idle, cost_drop_of_getElem? found, List.length_cons]
      split at called
      · rename_i plain
        cases called
        refine .inl ⟨rfl, idle, .operand _ found ?_⟩
        exact fun same => plain (Option.some.inj same)
      · rename_i hyphened
        obtain rfl : first = hyphen := not_not.mp hyphened
        split at called
        · rename_i second more
          rw [List.length_cons] at left
          split at called
          · refine .inr (shortOption_advances called ?_ distinct)
            rw [List.length_cons]
            omega
          · rename_i doubled
            obtain rfl : second = hyphen := not_not.mp doubled
            split at called
            · rename_i bare
              subst bare
              cases called
              exact .inl ⟨rfl, idle, .separator found⟩
            · rename_i named
              have shorter : more.length + cost (g.argv.drop (g.optind + 1)) < g.remaining := by
                omega
              have advanced := longOption_advances named shorter distinct
              rw [Option.some.inj called] at advanced
              exact .inr advanced
        · cases called
  · rename_i within
    refine .inr (shortOption_advances called ?_ distinct)
    rw [remaining, if_neg within]

theorem shortOption_eq_none_iff {place : CText} : g.shortOption place = none ↔ place = [] := by
  cases place with
  | nil => exact iff_of_true rfl rfl
  | cons c rest =>
      refine iff_of_false ?_ (List.cons_ne_nil _ _)
      rw [shortOption]
      split
      · exact Option.some_ne_none _
      · split
        · exact Option.some_ne_none _
        · split
          · exact Option.some_ne_none _
          · split <;> exact Option.some_ne_none _

/-- A call reads beyond the end of a text exactly at an argument that is one hyphen. -/
theorem getoption_eq_none_iff :
    g.getoption = none ↔ g.place = [] ∧ g.argv[g.optind]? = some [hyphen] := by
  rw [getoption]
  split
  · rename_i idle
    rw [and_iff_right idle]
    split
    · rename_i found
      exact iff_of_false (Option.some_ne_none _) (by simp [found])
    · rename_i found
      exact iff_of_false (Option.some_ne_none _) (by simp [found])
    · rename_i first place found
      split
      · rename_i plain
        exact iff_of_false (Option.some_ne_none _) (by simp [found, plain])
      · rename_i hyphened
        obtain rfl : first = hyphen := not_not.mp hyphened
        split
        · rename_i second more
          have longer : ¬ g.argv[g.optind]? = some [hyphen] := by simp [found]
          split
          · exact iff_of_false (mt shortOption_eq_none_iff.mp (List.cons_ne_nil _ _)) longer
          · split <;> exact iff_of_false (Option.some_ne_none _) longer
        · exact iff_of_true rfl found
  · rename_i within
    exact iff_of_false (mt shortOption_eq_none_iff.mp within) fun at_ => within at_.1

/-- What a caller finds after a call. -/
structure Seen where
  result : Int
  optarg : Option CText
  longindex : Int
  flags : Nat → Int

def view (g : GetOptLong) (result : Int) : Seen where
  result := result
  optarg := g.optarg
  longindex := g.longindex
  flags := g.flags

/-- The calls of a caller that goes on until -1; none where one reads beyond the end of
a text, or where the calls do not suffice. -/
def calls : Nat → GetOptLong → Option (List Seen × GetOptLong)
  | 0, _ => none
  | limit + 1, g =>
      g.getoption.bind fun called =>
        if called.1 = -1 then some ([], called.2)
        else (calls limit called.2).map fun later => (called.2.view called.1 :: later.1, later.2)

/-- All options of a command line, with a call for each character and one for the end. -/
def options (g : GetOptLong) : Option (List Seen × GetOptLong) :=
  calls (g.remaining + 1) g

/-- The operands begin here. -/
def StopsAt (argv : List CText) (optind : Nat) : Prop :=
  argv[optind]? = none ∨ (∃ arg, argv[optind]? = some arg ∧ arg.head? ≠ some hyphen) ∨
    ∃ place, optind = place + 1 ∧ argv[place]? = some [hyphen, hyphen]

theorem Ends.stopsAt (ends : g.Ends next) : StopsAt g.argv next.optind ∧ next.argv = g.argv := by
  cases ends with
  | last none => exact ⟨.inl none, rfl⟩
  | operand arg found plain => exact ⟨.inr (.inl ⟨arg, found, plain⟩), rfl⟩
  | separator found => exact ⟨.inr (.inr ⟨g.optind, rfl, found⟩), rfl⟩

theorem calls_total {limit : Nat} (bare : [hyphen] ∉ g.argv)
    (distinct : Distinct g.optstring g.longopts) (enough : g.remaining < limit) :
    ∃ seen last, calls limit g = some (seen, last) ∧ seen.length ≤ g.remaining ∧
      last.argv = g.argv ∧ StopsAt g.argv last.optind := by
  induction limit generalizing g with
  | zero => omega
  | succ limit ih =>
      rw [calls]
      cases called : g.getoption with
      | none =>
          obtain ⟨-, found⟩ := getoption_eq_none_iff.mp called
          exact absurd (List.mem_of_getElem? found) bare
      | some both =>
          obtain ⟨result, next⟩ := both
          rw [Option.bind_some]
          rcases getoption_cases called distinct with ⟨rfl, -, ends⟩ | ⟨goesOn, advances⟩
          · rw [if_pos rfl]
            exact ⟨[], next, rfl, Nat.zero_le _, ends.stopsAt.2, ends.stopsAt.1⟩
          · have fewer := advances.remaining
            rw [← advances.argv] at bare ⊢
            rw [← advances.optstring, ← advances.longopts] at distinct
            obtain ⟨seen, last, made, bound, sameArgv, stops⟩ := ih bare distinct (by omega)
            rw [if_neg goesOn, made]
            refine ⟨_, last, rfl, ?_, sameArgv, stops⟩
            change seen.length + 1 ≤ g.remaining
            omega

/-- On a command line without an argument that is one hyphen, a caller that goes on
until -1 gets there, with at most one option for each character, and the operands begin
where no option can be any more. -/
theorem options_total {argv : List CText} {optstring : CText} {longopts : List LongOption}
    (bare : [hyphen] ∉ argv) (distinct : Distinct optstring longopts) :
    ∃ seen last, (new argv optstring longopts).options = some (seen, last) ∧
      seen.length ≤ cost (argv.drop 1) ∧ last.argv = argv ∧ StopsAt argv last.optind :=
  calls_total bare distinct (Nat.lt_succ_self _)

/-- A text as bytes. -/
def ofText (text : String) : CText :=
  text.toList.map fun c => UInt8.ofNat c.toNat

def verboseOption : LongOption where
  name := ofText "verbose"
  hasArg := false
  flag := some 0
  val := 1

def portOption : LongOption where
  name := ofText "port"
  hasArg := true
  flag := none
  val := 112

/-- Two letters, one of them unknown, and two names, one of them without its argument. -/
def serverLine : List CText :=
  ["module", "-vq", "--verbose", "--port"].map ofText

theorem options_total_server :
    [hyphen] ∉ serverLine ∧ ∃ seen last,
      (new serverLine (ofText ":vp:") [verboseOption, portOption]).options = some (seen, last) ∧
      seen.length ≤ cost (serverLine.drop 1) ∧ last.argv = serverLine ∧
      StopsAt serverLine last.optind := by
  have bare : [hyphen] ∉ serverLine := by decide
  have letters : (255 : UInt8) ∉ ofText ":vp:" := by decide
  have values : ∀ opt ∈ [verboseOption, portOption], opt.val ≠ -1 := by
    simp only [List.forall_mem_cons]
    exact ⟨by decide, by decide, nofun⟩
  exact ⟨bare, options_total bare ⟨letters, values⟩⟩

end GetOptLong

end DroneEngage
