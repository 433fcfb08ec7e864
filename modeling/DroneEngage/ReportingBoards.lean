import DroneEngage.UnitCpuState

/-!
# Boards that keep reporting

A module reports in time, and every time that its board is super busy.  The stale
window grows with the interval between reports, but the age at which a board is
removed does not.  The board stays listed and the unit super busy exactly when no
tick finds all reports of the board older than a minute, and that is so in all
runs exactly when the interval is a minute at most.
-/

namespace DroneEngage

open EventRuns CCpuAggregator

def UnitCpuMoment.timeMs : UnitCpuMoment → Nat
  | .reported _ _ report => report.seenAtMs
  | .ticked nowMs _ _ _ => nowMs

def lastReport (boardId moduleId : String) : List UnitCpuMoment → Option ModuleReport
  | [] => none
  | .reported board module report :: earlier =>
      if board = boardId ∧ module = moduleId then some report
      else lastReport boardId moduleId earlier
  | .ticked .. :: earlier => lastReport boardId moduleId earlier

/-- The module reports super busy whenever it reports, and from its first report on
nothing happens later than an interval after its last one. -/
structure Steady (config : CpuMonitorConfig) (boardId moduleId : String)
    (history : List UnitCpuMoment) : Prop where
  busy : ∀ report, .reported boardId moduleId report ∈ history →
    report.s = cpuBoardStateSuperBusy
  prompt : ∀ later moment earlier, history = later ++ moment :: earlier →
    ∀ report, lastReport boardId moduleId earlier = some report →
      (moment.timeMs : Int) ≤ report.seenAtMs + config.reportS.toInt * 1000

/-- From the first report of the module on, every tick keeps the board listed and the
unit super busy, and none of them returns an edge to free. -/
def KeepsBoard (boardId moduleId : String) (history : List UnitCpuMoment) : Prop :=
  ∀ after nowMs events state boards before,
    history = after ++ .ticked nowMs events state boards :: before →
      (lastReport boardId moduleId before).isSome →
      boardId ∈ boards ∧ state = .superBusy ∧ ¬ raises events unitCpuEventBecameFree

/-- From the first report of the module on, every tick finds a report of the board
that is not older than a minute. -/
def NeverExpires (boardId moduleId : String) (history : List UnitCpuMoment) : Prop :=
  ∀ after nowMs events state boards before,
    history = after ++ .ticked nowMs events state boards :: before →
      (lastReport boardId moduleId before).isSome → ¬ BoardExpired before boardId nowMs

section Histories

variable {config : CpuMonitorConfig} {boardId moduleId : String}
  {history : List UnitCpuMoment} {report : ModuleReport}

theorem mem_of_lastReport (last : lastReport boardId moduleId history = some report) :
    .reported boardId moduleId report ∈ history := by
  induction history with
  | nil => cases last
  | cons moment history ih =>
      cases moment with
      | ticked => exact List.mem_cons_of_mem _ (ih last)
      | reported board module found =>
          rw [lastReport] at last
          split at last
          · rename_i same
            obtain ⟨rfl, rfl⟩ := same
            cases last
            exact List.mem_cons_self
          · exact List.mem_cons_of_mem _ (ih last)

theorem NeverExpires.tail {moment : UnitCpuMoment}
    (never : NeverExpires boardId moduleId (moment :: history)) :
    NeverExpires boardId moduleId history := by
  rintro after nowMs events state boards before rfl
  exact never (moment :: after) nowMs events state boards before rfl

/-- The last report of a module is remembered, if its board never expires. -/
theorem NeverExpires.remembers (never : NeverExpires boardId moduleId history)
    (last : lastReport boardId moduleId history = some report) :
    Remembers history boardId moduleId report := by
  induction history with
  | nil => cases last
  | cons moment history ih =>
      cases moment with
      | ticked nowMs events state boards =>
          rw [remembers_ticked_iff]
          exact ⟨ih never.tail last,
            never [] nowMs events state boards history rfl (last ▸ rfl)⟩
      | reported board module found =>
          rw [remembers_reported_iff]
          rw [lastReport] at last
          split at last
          · rename_i same
            rw [if_pos ⟨same.1.symm, same.2.symm⟩]
            exact (Option.some.inj last).symm
          · rename_i apart
            rw [if_neg fun same => apart ⟨same.1.symm, same.2.symm⟩]
            exact ih never.tail last

theorem keepsBoard_iff (sound : UnitCpuWatch.TicksSound config history)
    (valid : config.Valid) (steady : Steady config boardId moduleId history) :
    KeepsBoard boardId moduleId history ↔ NeverExpires boardId moduleId history := by
  constructor
  · intro keeps after nowMs events state boards before split reported
    have tickSound := sound after nowMs events state boards before split
    obtain ⟨listed, -, -⟩ := keeps after nowMs events state boards before split reported
    obtain ⟨module, report, remembers⟩ := (tickSound.listed boardId).mp listed
    exact ((remembers_ticked_iff _ _ _ _).mp remembers).2
  · intro never after nowMs events state boards before split reported
    have tickSound := sound after nowMs events state boards before split
    obtain ⟨report, last⟩ := Option.isSome_iff_exists.mp reported
    have remembers : Remembers (.ticked nowMs events state boards :: before)
        boardId moduleId report := by
      refine NeverExpires.remembers ?_ last
      rintro later tickMs tickEvents tickState tickBoards earlier ticked
      exact never (after ++ later) tickMs tickEvents tickState tickBoards earlier
        (by rw [split, ticked, List.append_assoc])
    have busy : state = .superBusy := by
      have saysBusy := steady.busy report (split ▸ List.mem_append_right _ remembers.mem)
      have prompt := steady.prompt after _ before split report last
      have positive := valid.reportS_pos
      refine tickSound.busy.mpr ⟨boardId, moduleId, report, remembers, saysBusy, ?_⟩
      rw [UnitCpuMoment.timeMs] at prompt
      omega
    refine ⟨(tickSound.listed boardId).mpr ⟨moduleId, report, remembers⟩, busy, ?_⟩
    rw [tickSound.becameFree, busy]
    exact fun free => nomatch free.2

/-- Reports that are a minute apart at most never let their board expire. -/
theorem Steady.neverExpires (steady : Steady config boardId moduleId history)
    (short : config.reportS ≤ 60) : NeverExpires boardId moduleId history := by
  intro after nowMs events state boards before split reported expired
  obtain ⟨report, last⟩ := Option.isSome_iff_exists.mp reported
  have prompt := steady.prompt after _ before split report last
  have old := expired moduleId report (mem_of_lastReport last)
  have minute : config.reportS.toInt ≤ 60 := Int32.le_iff_toInt_le.mp short
  rw [UnitCpuMoment.timeMs] at prompt
  rw [boardRemoveAfterMs] at old
  omega

theorem Steady.nil (config : CpuMonitorConfig) (boardId moduleId : String) :
    Steady config boardId moduleId [] where
  busy := nofun
  prompt := by
    intro later moment earlier split
    exact absurd split (by simp)

theorem Steady.cons (steady : Steady config boardId moduleId history) {moment : UnitCpuMoment}
    (busy : ∀ report, moment = .reported boardId moduleId report →
      report.s = cpuBoardStateSuperBusy)
    (prompt : ∀ report, lastReport boardId moduleId history = some report →
      (moment.timeMs : Int) ≤ report.seenAtMs + config.reportS.toInt * 1000) :
    Steady config boardId moduleId (moment :: history) where
  busy := by
    intro report reported
    rcases List.mem_cons.mp reported with same | reported
    · exact busy report same.symm
    · exact steady.busy report reported
  prompt := by
    intro later other earlier split
    rcases List.cons_eq_append_iff.mp split with ⟨-, same⟩ | ⟨rest, -, same⟩
    · cases same
      exact prompt
    · exact steady.prompt rest other earlier same

end Histories

namespace UnitCpuWatch

variable (beyondInt : Double → Int32)

def busyReport : Json :=
  .object [("bd", .string "b1"), ("s", .numberUnsigned 1), ("u", .numberUnsigned 95)]

/-- One report, and a tick just over a minute later, lose the board. -/
theorem exists_lost_board {config : CpuMonitorConfig} (valid : config.Valid)
    (long : 60 < config.reportS) :
    ∃ calls watch, Run (step beyondInt) (fresh config) calls watch ∧
      Steady config "b1" "camera" watch.history ∧
      ¬ KeepsBoard "b1" "camera" watch.history := by
  have interval : 60 < config.reportS.toInt := Int32.lt_iff_toInt_lt.mp long
  have run :=
    (Run.nil.snoc (show step beyondInt (fresh config) (.onReport "camera" busyReport 0) =
      some _ from rfl)).snoc (show step beyondInt _ (.tick 60001) = some _ from rfl)
  obtain ⟨-, -, sound⟩ := sound_of_run beyondInt valid run
  have reported : Steady config "b1" "camera" [.reported "b1" "camera" ⟨95, -1, 1, 0⟩] := by
    refine (Steady.nil config "b1" "camera").cons (fun report same => ?_) nofun
    cases same
    rfl
  have steady (events : Nat) (state : CpuBusyState) (boards : List String) :
      Steady config "b1" "camera"
        [.ticked 60001 events state boards, .reported "b1" "camera" ⟨95, -1, 1, 0⟩] := by
    refine reported.cons nofun fun report last => ?_
    cases last
    change (60001 : Int) ≤ 0 + config.reportS.toInt * 1000
    omega
  refine ⟨_, _, run, steady _ _ _, fun keeps => ?_⟩
  refine (keepsBoard_iff sound valid (steady _ _ _)).mp keeps [] _ _ _ _ _ rfl rfl ?_
  intro moduleId report reported
  cases List.mem_singleton.mp reported
  change 0 + boardRemoveAfterMs < 60001
  decide

/-- A board that keeps reporting super busy is kept, and the unit stays super busy,
exactly when no tick finds all its reports older than a minute; in all runs of a
configuration this is so exactly when its interval is a minute at most. -/
theorem board_kept_iff (moduleConfig : Json) :
    (∀ calls watch, Run (step beyondInt)
        (fresh (deParseCpuMonitorConfig beyondInt moduleConfig)) calls watch →
      ∀ boardId moduleId, Steady (deParseCpuMonitorConfig beyondInt moduleConfig)
          boardId moduleId watch.history →
        (KeepsBoard boardId moduleId watch.history ↔
          NeverExpires boardId moduleId watch.history)) ∧
    ((∀ calls watch, Run (step beyondInt)
        (fresh (deParseCpuMonitorConfig beyondInt moduleConfig)) calls watch →
      ∀ boardId moduleId, Steady (deParseCpuMonitorConfig beyondInt moduleConfig)
          boardId moduleId watch.history → KeepsBoard boardId moduleId watch.history) ↔
      (deParseCpuMonitorConfig beyondInt moduleConfig).reportS ≤ 60) := by
  have valid := deParseCpuMonitorConfig_valid beyondInt moduleConfig
  refine ⟨fun calls watch run boardId moduleId steady => ?_, fun kept => ?_,
    fun short calls watch run boardId moduleId steady => ?_⟩
  · exact keepsBoard_iff (sound_of_run beyondInt valid run).2.2 valid steady
  · by_contra long
    obtain ⟨calls, watch, run, steady, lost⟩ :=
      exists_lost_board beyondInt valid (Int32.not_le.mp long)
    exact lost (kept calls watch run "b1" "camera" steady)
  · exact (keepsBoard_iff (sound_of_run beyondInt valid run).2.2 valid steady).mpr
      (steady.neverExpires short)

/-- With 100 seconds between reports the unit becomes free in between. -/
theorem board_not_kept :
    ∃ watch, Run (step fun _ => 0)
        (fresh (deParseCpuMonitorConfig (fun _ => 0)
          (.object [("cpu_monitor", .object [("report_s", .numberUnsigned 100)])])))
        ([.onReport "camera" busyReport 0] ++ [.tick 1000] ++ [.tick 60001] ++
          [.onReport "camera" busyReport 100000]) watch ∧
      (∃ before, watch.history =
        [.reported "b1" "camera" ⟨95, -1, 1, 100000⟩] ++
          .ticked 60001 unitCpuEventBecameFree .free [] :: before) ∧
      Steady (deParseCpuMonitorConfig (fun _ => 0)
          (.object [("cpu_monitor", .object [("report_s", .numberUnsigned 100)])]))
        "b1" "camera" watch.history ∧
      ¬ KeepsBoard "b1" "camera" watch.history := by
  have run :=
    (((Run.nil.snoc (show step (fun _ => 0)
        (fresh (deParseCpuMonitorConfig (fun _ => 0)
          (.object [("cpu_monitor", .object [("report_s", .numberUnsigned 100)])])))
        (.onReport "camera" busyReport 0) = some _ from rfl)).snoc
      (show step (fun _ => 0) _ (.tick 1000) = some _ from rfl)).snoc
      (show step (fun _ => 0) _ (.tick 60001) = some _ from rfl)).snoc
      (show step (fun _ => 0) _ (.onReport "camera" busyReport 100000) = some _ from rfl)
  refine ⟨_, run, ⟨_, rfl⟩, ?_, fun keeps => ?_⟩
  · refine .cons (.cons (.cons (.cons (.nil _ _ _) ?_ ?_) ?_ ?_) ?_ ?_) ?_ ?_
    all_goals intro report last
    · cases last
      rfl
    · cases last
    · cases last
    · obtain rfl := Option.some.inj last
      decide
    · cases last
    · obtain rfl := Option.some.inj last
      decide
    · cases last
      rfl
    · obtain rfl := Option.some.inj last
      decide
  · have lost := (keeps [_] _ _ _ _ _ rfl rfl).1
    exact List.not_mem_nil lost

end UnitCpuWatch

end DroneEngage
