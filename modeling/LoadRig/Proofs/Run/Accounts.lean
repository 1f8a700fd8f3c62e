import LoadRig.Proofs.Phase.Progress
import LoadRig.Proofs.Phase.Records
import LoadRig.Proofs.Statistics.Rooms
/-!
# The accounts of a run

A run is the warmup phase and, unless warmup covers all messages or the run has been told to stop by
its end, the main phase. The main phase begins where warmup has ended, with the same clock and the same
sign to stop, and with a queue, counters and records of its own. What happens inside a phase, and in
which order, is left open: `PhaseRun` is a planned phase that some moves have brought to its end, and
`RunCourse` is a whole run of a configuration.

The report of a run adds up the counters of its phases and puts their records one after the other. So
what holds of the records of a phase carries over: they are what was counted, and they are never more
than the messages. And if nothing went wrong for any sender and nobody told the run to stop, they are
all messages, and each room has as many of them as the shares that go there make together.

## Main definitions

* `LoadRig.PhaseRun` — a planned phase and how it was brought to its end.
* `LoadRig.RunCourse`, `LoadRig.RunCourse.report` — a whole run, and its report.
* `LoadRig.RunReport.Accounts` — what the report of every run says.

## Main results

* `LoadRig.PhaseRun.nonempty`, `LoadRig.RunCourse.nonempty` — every configuration can be run.
* `LoadRig.RunCourse.accounts_of_course` — the accounts of every run.
* `LoadRig.RunCourse.incomplete_accounts` — a run that stops short without a sign to stop.
-/

namespace LoadRig

open LoadRig.Random

/-- The records of a phase are what was counted. -/
def PhaseReport.Kept (r : PhaseReport) : Prop :=
  r.records.count .ok = r.counters.succeeded ∧ r.records.count .fail = r.counters.failed

theorem Phase.Books.kept {σ : Type} [WordSource σ] {p : Phase σ} (hb : p.Books) (plan : PhasePlan)
    (began : Moment) : (p.report plan began).Kept :=
  ⟨hb.ok, hb.fail⟩

/-- A phase has never more records than it was asked for messages. -/
theorem Phase.size_le_of_steps {σ : Type} [WordSource σ] {settings : RetrySettings}
    {load : LoadConfig} {plan : PhasePlan} {shared : Shared} {generator : MessageGenerator σ}
    {ms : List PhaseMove} {p : Phase σ}
    (h : (ofPlan shared load plan generator).steps settings ms = some p) :
    p.shared.pool.snapshot.size ≤ plan.messages := by
  have hrequested : p.producer.requested = plan.messages := requested_steps h
  rw [← hrequested]
  exact (books_steps h (books_start ..)).length_records_le

/-! ### Runs -/

/-- A planned phase that begins with `shared`, and the moves that have brought it to its end. -/
structure PhaseRun (σ : Type) [WordSource σ] (settings : RetrySettings) (load : LoadConfig)
    (plan : PhasePlan) (shared : Shared) where
  generator : MessageGenerator σ
  moves : List PhaseMove
  last : Phase σ
  steps_eq : (Phase.ofPlan shared load plan generator).steps settings moves = some last
  done : last.isDone = true

/-- A run of a configuration that begins with `shared`. The main phase is left out if warmup covers all
messages, or if the run has been told to stop by the end of warmup. -/
inductive RunCourse (σ : Type) [WordSource σ] (c : Config) (shared : Shared)
  | warmupOnly (warmup : PhaseRun σ (.ofConfig c) c.load (RunPlan.ofConfig c).warmup shared)
      (hplan : (RunPlan.ofConfig c).main = none)
  | cutShort (warmup : PhaseRun σ (.ofConfig c) c.load (RunPlan.ofConfig c).warmup shared)
      (hplan : (RunPlan.ofConfig c).main ≠ none) (hstop : warmup.last.shared.stopping = true)
  | full (warmup : PhaseRun σ (.ofConfig c) c.load (RunPlan.ofConfig c).warmup shared)
      (plan : PhasePlan) (hplan : (RunPlan.ofConfig c).main = some plan)
      (hstop : warmup.last.shared.stopping = false)
      (main : PhaseRun σ (.ofConfig c) c.load plan warmup.last.shared)

section Runs

variable {σ : Type} [WordSource σ] {settings : RetrySettings} {load : LoadConfig} {plan : PhasePlan}
  {shared : Shared} {c : Config}

namespace PhaseRun

/-- The report of a phase. -/
def report (r : PhaseRun σ settings load plan shared) : PhaseReport :=
  r.last.report plan shared.now

theorem books (r : PhaseRun σ settings load plan shared) : r.last.Books :=
  Phase.books_steps r.steps_eq (Phase.books_start ..)

theorem kept (r : PhaseRun σ settings load plan shared) : r.report.Kept := r.books.kept plan _

theorem size_le (r : PhaseRun σ settings load plan shared) :
    r.report.records.size ≤ plan.messages :=
  Phase.size_le_of_steps r.steps_eq

/-- A phase that nothing went wrong in has all its messages in its records, and in the records of a
room the shares that go there. -/
theorem records_eq (r : PhaseRun σ settings load plan shared)
    (hstop : r.last.shared.stopping = false) (hf : ∀ s ∈ r.last.senders, s.Fared)
    (hm : plan.messages < wideLimit) (ht : 0 < plan.threads) (hrooms : 0 < load.rooms) :
    r.report.records.size = plan.messages ∧
      ∀ room, r.report.records.records.countP (·.room == room)
        = (plan.quotasIn load.rooms room).sum :=
  ⟨Phase.length_records_ofPlan r.steps_eq r.done hstop hf hm ht,
    fun room => Phase.countP_room_ofPlan r.steps_eq r.done hstop hf hrooms room⟩

/-- **Every planned phase can be run to its end.** -/
theorem nonempty (settings : RetrySettings) (load : LoadConfig) (plan : PhasePlan) (shared : Shared)
    (generator : MessageGenerator σ) : Nonempty (PhaseRun σ settings load plan shared) := by
  have hsteady : (Phase.ofPlan shared load plan generator).Steady settings := Phase.steady_start ..
  obtain ⟨last, hgo, -, hdone⟩ := hsteady.exists_isDone fun _ _ =>
    { opening := .ok (), reply := .ok "", linkOpen := true }
  obtain ⟨ms, hms⟩ := Phase.exists_steps_of_leads (hgo.lift id fun _ _ => Phase.GoesBy.leads)
  exact ⟨generator, ms, last, hms, hdone⟩

end PhaseRun

end Runs

/-! ### Reports -/

/-- What the report of every run says, where `total` is the number of messages that were asked for. -/
structure RunReport.Accounts (r : RunReport) (total : Nat) : Prop where
  counters : r.overall.counters = r.warmup.counters + (r.main.map (·.counters)).getD .zero
  records : r.records.records
    = r.warmup.records.records ++ (r.main.map (·.records.records)).getD []
  ok : r.records.count .ok = r.overall.counters.succeeded
  fail : r.records.count .fail = r.overall.counters.failed
  within : r.records.size ≤ total

theorem RunReport.records_ofPhases (warmup : PhaseReport) (main : Option PhaseReport)
    (elapsed : Nat) : (ofPhases warmup main elapsed).records.records
      = warmup.records.records ++ (main.map (·.records.records)).getD [] := by
  cases main <;> simp [ofPhases, RecordSet.concat]

/-- The accounts of a run are those of its phases together. -/
theorem RunReport.accounts_ofPhases {warmup : PhaseReport} {main : Option PhaseReport} {total : Nat}
    (elapsed : Nat) (hw : warmup.Kept) (hm : ∀ r, main = some r → r.Kept)
    (hle : warmup.records.size + (main.map (·.records.size)).getD 0 ≤ total) :
    (ofPhases warmup main elapsed).Accounts total := by
  have hrecords := records_ofPhases warmup main elapsed
  refine ⟨rfl, hrecords, ?_, ?_, ?_⟩
  · rw [RecordSet.count, hrecords, List.countP_append, ← RecordSet.count, hw.1]
    cases hmain : main with
    | none => rfl
    | some r => exact congrArg (_ + ·) (hm r hmain).1
  · rw [RecordSet.count, hrecords, List.countP_append, ← RecordSet.count, hw.2]
    cases hmain : main with
    | none => rfl
    | some r => exact congrArg (_ + ·) (hm r hmain).2
  · rw [RecordSet.size, hrecords, List.length_append]
    cases hmain : main with
    | none =>
      rw [hmain] at hle
      exact hle
    | some r =>
      rw [hmain] at hle
      exact hle

namespace RunCourse

variable {σ : Type} [WordSource σ] {shared : Shared} {c : Config}

/-- The report of a run. -/
def report : RunCourse σ c shared → RunReport
  | warmupOnly warmup _ | cutShort warmup _ _ =>
    .ofPhases warmup.report none (timeSince shared.now warmup.last.shared.now)
  | full warmup _ _ _ main =>
    .ofPhases warmup.report (some main.report) (timeSince shared.now main.last.shared.now)

/-- What happened in all phases. -/
def moves : RunCourse σ c shared → List PhaseMove
  | warmupOnly warmup _ | cutShort warmup _ _ => warmup.moves
  | full warmup _ _ _ main => warmup.moves ++ main.moves

/-- The senders of all phases. -/
def senders : RunCourse σ c shared → List Sender
  | warmupOnly warmup _ | cutShort warmup _ _ => warmup.last.senders
  | full warmup _ _ _ main => warmup.last.senders ++ main.last.senders

/-- **Every configuration can be run.** -/
theorem nonempty (c : Config) (shared : Shared) (generator : MessageGenerator σ) :
    Nonempty (RunCourse σ c shared) := by
  obtain ⟨warmup⟩ :=
    PhaseRun.nonempty (.ofConfig c) c.load (RunPlan.ofConfig c).warmup shared generator
  cases hplan : (RunPlan.ofConfig c).main with
  | none => exact ⟨warmupOnly warmup hplan⟩
  | some plan =>
    cases hstop : warmup.last.shared.stopping with
    | true => exact ⟨cutShort warmup (by simp [hplan]) hstop⟩
    | false =>
      obtain ⟨main⟩ := PhaseRun.nonempty (.ofConfig c) c.load plan warmup.last.shared generator
      exact ⟨full warmup plan hplan hstop main⟩

theorem accounts (r : RunCourse σ c shared) : r.report.Accounts c.load.totalMessages := by
  have htotal := RunPlan.totalMessages_ofConfig c
  cases r with
  | warmupOnly warmup hplan | cutShort warmup hplan =>
    refine RunReport.accounts_ofPhases _ warmup.kept nofun ?_
    have hle := warmup.size_le
    simp only [RunPlan.totalMessages] at htotal
    simp only [Option.map_none, Option.getD_none]
    omega
  | full warmup plan hplan hstop main =>
    refine RunReport.accounts_ofPhases _ warmup.kept ?_ ?_
    · rintro _ ⟨⟩
      exact main.kept
    · have hle := warmup.size_le
      have hle' := main.size_le
      simp only [RunPlan.totalMessages, hplan, Option.map_some, Option.getD_some] at htotal
      simp only [Option.map_some, Option.getD_some]
      omega

/-- A run that nothing went wrong in has all its messages in its records, and in the records of a room
the shares that go there. -/
theorem records_eq (r : RunCourse σ c shared) (hvalid : c.broken? = none)
    (htotal : c.load.totalMessages < wideLimit) (hstop : shared.stopping = false)
    (hmoves : PhaseMove.stop ∉ r.moves) (hfared : ∀ s ∈ r.senders, s.Fared) :
    r.report.records.size = c.load.totalMessages ∧
      ∀ room, r.report.records.records.countP (·.room == room)
        = ((RunPlan.ofConfig c).quotasIn c.load.rooms room).sum := by
  have hrooms := Config.rooms_pos hvalid
  have ht := Config.warmupThreads_pos hvalid
  have hsum := RunPlan.totalMessages_ofConfig c
  rw [RunPlan.totalMessages] at hsum
  have hm : (RunPlan.ofConfig c).warmup.messages < wideLimit := by omega
  cases r with
  | cutShort warmup hplan hstopped =>
    have hlast : warmup.last.shared.stopping = false :=
      (Phase.stopping_of_steps warmup.steps_eq hmoves).trans hstop
    rw [hlast] at hstopped
    cases hstopped
  | warmupOnly warmup hplan =>
    have hlast : warmup.last.shared.stopping = false :=
      (Phase.stopping_of_steps warmup.steps_eq hmoves).trans hstop
    obtain ⟨hsize, hroom⟩ := warmup.records_eq hlast hfared hm ht hrooms
    have hrecords := RunReport.records_ofPhases warmup.report none
      (timeSince shared.now warmup.last.shared.now)
    simp only [Option.map_none, Option.getD_none, List.append_nil] at hrecords
    simp only [hplan, Option.map_none, Option.getD_none] at hsum
    refine ⟨?_, fun room => ?_⟩
    · rw [← hsum, ← hsize, RecordSet.size, report, hrecords]
      rfl
    · rw [report, hrecords, hroom, RunPlan.quotasIn, hplan]
      simp
  | full warmup plan hplan hlast main =>
    have hmain : main.last.shared.stopping = false :=
      (Phase.stopping_of_steps main.steps_eq fun h => hmoves (List.mem_append_right _ h)).trans hlast
    have ht' : 0 < plan.threads := RunPlan.threads_of_main hplan ▸ Config.mainThreads_pos hvalid
    simp only [hplan, Option.map_some, Option.getD_some] at hsum
    obtain ⟨hsize, hroom⟩ := warmup.records_eq hlast
      (fun s hs => hfared s (List.mem_append_left _ hs)) hm ht hrooms
    obtain ⟨hsize', hroom'⟩ := main.records_eq hmain
      (fun s hs => hfared s (List.mem_append_right _ hs)) (by omega) ht' hrooms
    have hrecords := RunReport.records_ofPhases warmup.report (some main.report)
      (timeSince shared.now main.last.shared.now)
    simp only [Option.map_some, Option.getD_some] at hrecords
    refine ⟨?_, fun room => ?_⟩
    · rw [← hsum, ← hsize, ← hsize', RecordSet.size, report, hrecords, List.length_append]
      rfl
    · rw [report, hrecords, List.countP_append, hroom, hroom', RunPlan.quotasIn, hplan]
      simp

/-- **The accounts of every run.** -/
theorem accounts_of_course (c : Config) (hvalid : c.broken? = none)
    (htotal : c.load.totalMessages < wideLimit) (shared : Shared) (r : RunCourse σ c shared) :
    r.report.Accounts c.load.totalMessages ∧
      (shared.stopping = false → PhaseMove.stop ∉ r.moves → (∀ s ∈ r.senders, s.Fared) →
        r.report.records.size = c.load.totalMessages ∧
        ∀ room, (r.report.records.roomThroughput.filter (·.room == room)).map (·.messages)
          = if (RunPlan.ofConfig c).quotasIn c.load.rooms room = [] then []
            else [((RunPlan.ofConfig c).quotasIn c.load.rooms room).sum]) := by
  refine ⟨r.accounts, fun hstop hmoves hfared => ?_⟩
  obtain ⟨hsize, hroom⟩ := r.records_eq hvalid htotal hstop hmoves hfared
  refine ⟨hsize, fun room => ?_⟩
  rw [RecordSet.messages_of_room, hroom]
  simp only [RunPlan.sum_quotasIn_eq_zero]

/-! ### Two messages -/

/-- Two messages and one worker in each phase; warmup takes as many messages as it is told. -/
def pairConfig (warmupMessages : Nat) : Config :=
  { load := { totalMessages := 2, rooms := 3 }
    warmup := { threads := 1, messagesPerThread := warmupMessages }
    mainPhase := { threads := 1 } }

/-- The beginning of a run. -/
def beginning : Shared := { queue := .bounded 1 }

/-- Words that are all zero, for messages with five texts. -/
def zeros : MessageGenerator WordStream :=
  .create 3 (.ofSize 5) { word := fun _ => 0, place := 0 }

/-- The only sender connects, has its only message acknowledged and closes its connection. -/
def errand : List PhaseMove :=
  [.release, .produce, .produce, .sender 0 (.dialed (.ok ())), .sender 0 .looked,
    .sender 0 (.replied (.ok "ok") true), .sender 0 .closed]

/-- The warmup phase of one message. -/
def firstErrand : PhaseRun WordStream (.ofConfig (pairConfig 1)) (pairConfig 1).load
    (RunPlan.ofConfig (pairConfig 1)).warmup beginning where
  generator := zeros
  moves := errand
  last := ((Phase.ofPlan beginning (pairConfig 1).load (RunPlan.ofConfig (pairConfig 1)).warmup
    zeros).steps (.ofConfig (pairConfig 1)) errand).get (by decide)
  steps_eq := (Option.some_get _).symm
  done := by decide

/-- The main phase of the other message. -/
def secondErrand : PhaseRun WordStream (.ofConfig (pairConfig 1)) (pairConfig 1).load
    { kind := .main, messages := 1, threads := 1 } firstErrand.last.shared where
  generator := zeros
  moves := errand
  last := ((Phase.ofPlan firstErrand.last.shared (pairConfig 1).load
    { kind := .main, messages := 1, threads := 1 } zeros).steps (.ofConfig (pairConfig 1))
    errand).get (by decide)
  steps_eq := (Option.some_get _).symm
  done := by decide

/-- A run of one message in each phase. -/
def errands : RunCourse WordStream (pairConfig 1) beginning :=
  .full firstErrand { kind := .main, messages := 1, threads := 1 } (by decide) (by decide)
    secondErrand

/-- Both messages are recorded, and they went to the first room. -/
theorem accounts_of_errands : (pairConfig 1).broken? = none ∧
    errands.report.records.size = 2 ∧
    (errands.report.records.roomThroughput.filter (·.room == 1)).map (·.messages) = [2] ∧
    (errands.report.records.roomThroughput.filter (·.room == 2)).map (·.messages) = [] := by
  have hvalid : (pairConfig 1).broken? = none := by decide
  have hfared : ∀ s ∈ errands.senders, s.Fared := by
    have hall : ∀ s ∈ errands.senders, s.hasFallen = false ∧ s.exit? = some .quotaReached := by
      decide
    exact fun s hs => ⟨(hall s hs).1, by simp [(hall s hs).2]⟩
  obtain ⟨hsize, hrooms⟩ :=
    (accounts_of_course (pairConfig 1) hvalid (by decide) beginning errands).2 rfl
      (by simp [errands, moves, firstErrand, secondErrand, errand]) hfared
  exact ⟨hvalid, hsize, (hrooms 1).trans (by decide), (hrooms 2).trans (by decide)⟩

/-- The warmup phase of two messages, in which the only sender is brought down at the second. -/
def broken : RunCourse WordStream (pairConfig 2) beginning :=
  .warmupOnly
    { generator := zeros
      moves := Phase.fall
      last := ((Phase.ofPlan beginning (pairConfig 2).load (RunPlan.ofConfig (pairConfig 2)).warmup
        zeros).steps (.ofConfig (pairConfig 2)) Phase.fall).get (by decide)
      steps_eq := (Option.some_get _).symm
      done := by decide }
    (by decide)

/-- A run without a sign to stop, in which every sender got its connection, and that has not recorded
all its messages: its only sender was brought down. -/
theorem incomplete_accounts : (pairConfig 2).broken? = none ∧
    (pairConfig 2).load.totalMessages < wideLimit ∧ beginning.stopping = false ∧
    PhaseMove.stop ∉ broken.moves ∧
    (∀ s ∈ broken.senders, ∀ reason, s.exit? ≠ some (.connectFailed reason)) ∧
    broken.report.records.size ≠ (pairConfig 2).load.totalMessages := by
  have hexit : ∀ s ∈ broken.senders, s.exit? = none := by decide
  refine ⟨by decide, by decide, rfl, by simp [broken, moves, Phase.fall], fun s hs reason => ?_,
    by decide⟩
  simp [hexit s hs]

end RunCourse

end LoadRig
