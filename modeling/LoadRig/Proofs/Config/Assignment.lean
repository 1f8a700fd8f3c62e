import LoadRig.Config.OfToml
import LoadRig.Proofs.Toml.Meanings
import LoadRig.Proofs.Toml.Reading
/-!
# Parameters that are assigned

An assignment gives values to some of the parameters; laid over the defaults it makes a configuration. It
is written down line by line, each value with the name of its parameter below the header of its group.
What else a document says is not told to anyone, as long as it does not use the name of a parameter and
makes of the name of a group nothing but a table.

A configuration is then read from what the names in a document stand for, whatever the order of its lines
is: each group sees its own names only, and what is not written has its default.

## Main definitions

* `LoadRig.Config.Parameter` — the parameters, each with its group and its name.
* `LoadRig.Config.Assignment`, `LoadRig.Config.Assignment.overlay` — values for some of them, and the
  configuration that they make.
* `LoadRig.Config.Assignment.Written` — lines that write an assignment down.

## Main results

* `LoadRig.Config.Assignment.holds_of_written` — what the names in a document stand for.
* `LoadRig.Config.Assignment.ofTables?_of_holds` — the configuration in its tables.
-/

namespace LoadRig.Config

open LoadRig.Toml

/-! ### Names -/

/-- The groups of parameters. -/
inductive Group where
  | target
  | load
  | warmup
  | mainPhase
  | retry
  | worker
deriving DecidableEq

def Group.name : Group → String
  | target => "target"
  | load => "load"
  | warmup => "warmup"
  | mainPhase => "main_phase"
  | retry => "retry"
  | worker => "worker"

def Group.all : List Group := [.target, .load, .warmup, .mainPhase, .retry, .worker]

theorem Group.mem_all (g : Group) : g ∈ all := by
  cases g <;> decide

/-- The parameters that are numbers. -/
inductive Quantity where
  | connectTimeoutMs
  | ackTimeoutMs
  | totalMessages
  | queueCapacity
  | rooms
  | contentPoolSize
  | seed
  | warmupThreads
  | messagesPerThread
  | mainThreads
  | maxAttempts
  | baseBackoffMs
  | pollTimeoutMs
deriving DecidableEq

/-- All parameters. -/
inductive Parameter where
  | baseUrl
  | quantity (q : Quantity)
deriving DecidableEq

namespace Parameter

/-- The group that a parameter belongs to. -/
def group : Parameter → Group
  | baseUrl => .target
  | quantity .connectTimeoutMs | quantity .ackTimeoutMs => .target
  | quantity .totalMessages | quantity .queueCapacity | quantity .rooms => .load
  | quantity .contentPoolSize | quantity .seed => .load
  | quantity .warmupThreads | quantity .messagesPerThread => .warmup
  | quantity .mainThreads => .mainPhase
  | quantity .maxAttempts | quantity .baseBackoffMs => .retry
  | quantity .pollTimeoutMs => .worker

/-- The name of a parameter in its group. -/
def name : Parameter → String
  | baseUrl => "base_url"
  | quantity .connectTimeoutMs => "connect_timeout_ms"
  | quantity .ackTimeoutMs => "ack_timeout_ms"
  | quantity .totalMessages => "total_messages"
  | quantity .queueCapacity => "queue_capacity"
  | quantity .rooms => "rooms"
  | quantity .contentPoolSize => "content_pool_size"
  | quantity .seed => "seed"
  | quantity .warmupThreads => "threads"
  | quantity .messagesPerThread => "messages_per_thread"
  | quantity .mainThreads => "threads"
  | quantity .maxAttempts => "max_attempts"
  | quantity .baseBackoffMs => "base_backoff_ms"
  | quantity .pollTimeoutMs => "poll_timeout_ms"

/-- The name of a parameter in a document. -/
def path (p : Parameter) : Path := [p.group.name.toList, p.name.toList]

/-- The line that writes a parameter, below the header of its group. -/
def line (p : Parameter) (i : Item) : Statement := .pair [p.group.name.toList] [p.name.toList] i

end Parameter

/-- The parameters of a group, in their order. -/
def Group.parameters : Group → List Parameter
  | target => [.baseUrl, .quantity .connectTimeoutMs, .quantity .ackTimeoutMs]
  | load => [.quantity .totalMessages, .quantity .queueCapacity, .quantity .rooms,
      .quantity .contentPoolSize, .quantity .seed]
  | warmup => [.quantity .warmupThreads, .quantity .messagesPerThread]
  | mainPhase => [.quantity .mainThreads]
  | retry => [.quantity .maxAttempts, .quantity .baseBackoffMs]
  | worker => [.quantity .pollTimeoutMs]

theorem Group.mem_parameters {g : Group} {p : Parameter} : p ∈ g.parameters ↔ p.group = g := by
  rcases p with _ | q
  · cases g <;> decide
  · cases q <;> cases g <;> decide

/-! ### Assignments -/

/-- Values for some of the parameters. -/
structure Assignment where
  baseUrl : Option String := none
  quantity : Quantity → Option Nat := fun _ => none

/-- The least number that is too large for a parameter. A document holds no unsigned numbers, so a bit is
lost where sixty-four are kept. -/
def Quantity.limit : Quantity → Nat
  | rooms | maxAttempts => narrowLimit
  | _ => signedLimit

theorem Quantity.limit_le (q : Quantity) : q.limit ≤ signedLimit := by
  unfold Quantity.limit
  split <;> decide

namespace Assignment

/-- The numbers fit their parameters. -/
def InRange (a : Assignment) : Prop := ∀ q n, a.quantity q = some n → n < q.limit

/-- The value of a parameter as it is written. -/
def item? (a : Assignment) : Parameter → Option Item
  | .baseUrl => a.baseUrl.map fun s => .string s.toList
  | .quantity q => (a.quantity q).map fun (n : Nat) => .integer n

/-- The defaults with the assigned values in their places. -/
def overlay (a : Assignment) : Config :=
  let d : Config := {}
  { target :=
      { baseUrl := a.baseUrl.getD d.target.baseUrl
        connectTimeoutMs := (a.quantity .connectTimeoutMs).getD d.target.connectTimeoutMs
        ackTimeoutMs := (a.quantity .ackTimeoutMs).getD d.target.ackTimeoutMs }
    load :=
      { totalMessages := (a.quantity .totalMessages).getD d.load.totalMessages
        queueCapacity := (a.quantity .queueCapacity).getD d.load.queueCapacity
        rooms := (a.quantity .rooms).getD d.load.rooms
        contentPoolSize := (a.quantity .contentPoolSize).getD d.load.contentPoolSize
        seed := a.quantity .seed }
    warmup :=
      { threads := (a.quantity .warmupThreads).getD d.warmup.threads
        messagesPerThread := (a.quantity .messagesPerThread).getD d.warmup.messagesPerThread }
    mainPhase := { threads := (a.quantity .mainThreads).getD d.mainPhase.threads }
    retry :=
      { maxAttempts := (a.quantity .maxAttempts).getD d.retry.maxAttempts
        baseBackoffMs := (a.quantity .baseBackoffMs).getD d.retry.baseBackoffMs }
    worker := { pollTimeoutMs := (a.quantity .pollTimeoutMs).getD d.worker.pollTimeoutMs } }

end Assignment

/-- A line that assigns nothing: the names of the parameters do not occur in it, and what it calls like a
group is a table. -/
structure Foreign (s : Statement) : Prop where
  parameter : ∀ (p : Parameter) k, ¬ s.Defines p.path k
  group : ∀ (g : Group) k, s.Defines [g.name.toList] k → ∃ origin, k = .table origin

/-- Lines that write an assignment down, in any order and with any lines in between that assign
nothing. -/
structure Assignment.Written (a : Assignment) (ss : List Statement) : Prop where
  assigned : ∀ p i, a.item? p = some i → p.line i ∈ ss
  others : ∀ s ∈ ss, (∃ p i, a.item? p = some i ∧ s = p.line i) ∨ Foreign s

/-- Names in tables stand for what an assignment says, and those of groups for tables. -/
structure Assignment.Holds (a : Assignment) (es : Entries) : Prop where
  parameter : ∀ p : Parameter, itemAt es p.path = a.item? p
  group : ∀ (g : Group) i, es.find? g.name.toList = some i → ∃ origin inner, i = .table origin inner

variable {a : Assignment} {es : Entries} {ss : List Statement} {s : Statement} {p : Parameter}
  {g : Group} {q : Quantity} {i : Item} {k : Kind} {path : Path}

/-! ### What the names stand for -/

theorem Group.name_injective : Function.Injective Group.name := by
  intro g h heq
  cases g <;> cases h <;> first | rfl | simp [Group.name] at heq

/-- A parameter is known by its group and its name. -/
theorem Parameter.eq_of_names {p p' : Parameter} (hgroup : p.group = p'.group)
    (hname : p.name = p'.name) : p = p' := by
  rcases p with _ | q <;> rcases p' with _ | q'
  · rfl
  · cases q' <;> simp [Parameter.name] at hname
  · cases q <;> simp [Parameter.name] at hname
  · cases q <;> cases q' <;>
      first | rfl | exact absurd hgroup (by decide) | simp [Parameter.name] at hname

theorem Parameter.path_injective : Function.Injective Parameter.path := by
  intro p p' h
  obtain ⟨hgroup, hname⟩ := List.cons.inj h
  exact eq_of_names (Group.name_injective (String.toList_injective hgroup))
    (String.toList_injective (List.cons.inj hname).1)

/-- The line of a parameter says nothing but its value. -/
theorem Parameter.of_defines_line (h : (p.line i).Defines path k) : path = p.path ∧ k = .value i :=
  Statement.Single.defines (s := p.line i) rfl h

/-- A line is foreign if its first name is that of no group. -/
theorem foreign_of_head (h : ∀ g : Group, s.path.head? ≠ some g.name.toList) : Foreign s where
  parameter p k hd := by
    obtain ⟨r, hr, -⟩ := hd.exists_append
    exact h p.group (by rw [hr]; rfl)
  group g k hd := by
    obtain ⟨r, hr, -⟩ := hd.exists_append
    exact absurd (by rw [hr]; rfl) (h g)

/-- So is the header of a group. -/
theorem foreign_header (g : Group) : Foreign (.header [g.name.toList]) := by
  have hd : ∀ {path : Path} {k : Kind}, Statement.Defines (.header [g.name.toList]) path k →
      path = [g.name.toList] ∧ k = .table .header :=
    Statement.Single.defines (s := .header [g.name.toList]) rfl
  constructor
  · intro p k h
    cases (List.cons.inj (hd h).1).2
  · intro g' k h
    exact ⟨.header, (hd h).2⟩

/-- And so is a key in a group whose first name is that of no parameter there. -/
theorem foreign_pair {g : Group} {name : List Char} (rest : Path) (v : Item)
    (h : ∀ p : Parameter, p.group = g → p.name.toList ≠ name) :
    Foreign (.pair [g.name.toList] (name :: rest) v) where
  parameter p k hd := by
    obtain ⟨r, hr, -⟩ := hd.exists_append
    obtain ⟨hgroup, hname⟩ := List.cons.inj hr
    exact h p (Group.name_injective (String.toList_injective hgroup.symm)) (List.cons.inj hname).1.symm
  group g' k hd := by
    generalize hs : Statement.pair [g.name.toList] (name :: rest) v = s at hd
    generalize hq : [g'.name.toList] = q at hd
    cases hd with
    | header | element | wayToHeader | wayToElement => cases hs
    | value u key w =>
      obtain ⟨rfl, rfl, rfl⟩ := Statement.pair.inj hs
      cases (List.cons.inj hq).2
    | @wayToValue t r u w ht hr =>
      obtain ⟨rfl, -, -⟩ := Statement.pair.inj hs
      exact absurd (List.cons.inj hq).2.symm ht

namespace Assignment

theorem Written.eq_of_defines (h : a.Written ss) (hs : s ∈ ss) (hd : s.Defines p.path k) :
    ∃ i, a.item? p = some i ∧ k = .value i := by
  rcases h.others s hs with ⟨p', i, hi, rfl⟩ | hforeign
  · obtain ⟨hpath, hk⟩ := Parameter.of_defines_line hd
    obtain rfl := Parameter.path_injective hpath
    exact ⟨i, hi, hk⟩
  · exact absurd hd (hforeign.parameter p k)

theorem Written.group (h : a.Written ss) (hs : s ∈ ss) (hd : s.Defines [g.name.toList] k) :
    ∃ origin, k = .table origin := by
  rcases h.others s hs with ⟨p', i, -, rfl⟩ | hforeign
  · obtain ⟨hpath, -⟩ := Parameter.of_defines_line hd
    cases (List.cons.inj hpath).2
  · exact hforeign.group g k hd

/-- No list of tables is opened on the way to a parameter. -/
theorem Written.seen (h : a.Written ss) (honce : NamesOnce [] ss) :
    ∀ t r, .element t ∈ ss → p.path = t ++ r → r = [] := by
  intro t r ht heq
  obtain ⟨first, t, rfl⟩ := List.exists_cons_of_ne_nil (honce.path_ne_nil ht)
  obtain ⟨rfl, hname⟩ := List.cons.inj heq
  cases t with
  | nil =>
    obtain ⟨origin, horigin⟩ := h.group ht (.element [p.group.name.toList])
    cases horigin
  | cons second t => exact (List.append_eq_nil_iff.mp (List.cons.inj hname).2.symm).2

/-- **What the names in a document stand for**, if it writes an assignment down. -/
theorem holds_of_written (h : a.Written ss) (hf : Faithful es ss.reverse) (honce : NamesOnce [] ss) :
    a.Holds es where
  parameter p := by
    have hitem : ∀ {i : Item}, itemAt es p.path = some i →
        ∃ v, a.item? p = some v ∧ i.kind = .value v := by
      intro i hi
      obtain ⟨s, hs, hd⟩ := (hf.sound _ i hi).exists_mem
      exact h.eq_of_defines (List.mem_reverse.mp hs) hd
    cases hv : a.item? p with
    | none =>
      cases hi : itemAt es p.path with
      | none => rfl
      | some i =>
        obtain ⟨v, hnone, -⟩ := hitem hi
        cases hv.symm.trans hnone
    | some v =>
      have hdefined : Defined ss.reverse p.path (.value v) := by
        refine Statement.Defines.defined (.value [p.group.name.toList] [p.name.toList] v)
          (List.mem_reverse.mpr (h.assigned p v hv)) fun t r ht => ?_
        exact h.seen honce t r (List.mem_reverse.mp ht)
      obtain ⟨i, hi⟩ := hf.complete _ _ hdefined
      obtain ⟨w, hw, hkind⟩ := hitem hi
      obtain rfl := Option.some.inj (hv.symm.trans hw)
      rw [hi, eq_of_kind hkind]
  group g i hi := by
    obtain ⟨s, hs, hd⟩ := (hf.sound [g.name.toList] i hi).exists_mem
    obtain ⟨origin, hkind⟩ := h.group (List.mem_reverse.mp hs) hd
    exact ⟨origin, exists_table_of_kind hkind⟩

/-! ### The configuration in tables -/

/-- A group sees the values of its own parameters. -/
theorem Holds.parameters?_eq (h : a.Holds es) (g : Group) :
    parameters? (g.parameters.map Parameter.name) (es.find? g.name.toList) =
      some (g.parameters.map a.item?) := by
  have hitem : ∀ p ∈ g.parameters, (es.below g.name.toList).find? p.name.toList = a.item? p := by
    intro p hp
    obtain rfl := Group.mem_parameters.mp hp
    exact h.parameter p
  cases hfind : es.find? g.name.toList with
  | none =>
    have hnone : es.below g.name.toList = [] := by rw [Entries.below, hfind]; rfl
    rw [hnone] at hitem
    rw [parameters?, List.map_map]
    exact congrArg some (List.map_congr_left hitem)
  | some i =>
    obtain ⟨origin, inner, rfl⟩ := h.group g i hfind
    have hinner : es.below g.name.toList = inner := by rw [Entries.below, hfind]; rfl
    rw [hinner] at hitem
    rw [parameters?, List.map_map]
    exact congrArg some (List.map_congr_left hitem)

/-- An assigned text is read, and an absent one has its default. -/
theorem text?_item? (a : Assignment) (fallback : String) :
    text? fallback (a.item? .baseUrl) = some (a.baseUrl.getD fallback) := by
  rw [item?]
  cases a.baseUrl with
  | none => rfl
  | some s => exact congrArg some String.ofList_toList

/-- An assigned number is read, and an absent one has its default. -/
theorem number?_item? {limit : Nat} (hlimit : ∀ n, a.quantity q = some n → n < limit)
    (fallback : Nat) :
    number? limit fallback (a.item? (.quantity q)) = some ((a.quantity q).getD fallback) := by
  rw [item?]
  cases hn : a.quantity q with
  | none => rfl
  | some n =>
    have hlt : (n : Int) < limit := Int.ofNat_lt.mpr (hlimit n hn)
    simp [number?, hlt]

theorem InRange.wide? (h : a.InRange) (q : Quantity) (fallback : Nat) :
    Config.wide? fallback (a.item? (.quantity q)) = some ((a.quantity q).getD fallback) :=
  number?_item? (fun n hn => (h q n hn).trans_le (q.limit_le.trans (by decide))) fallback

theorem InRange.narrow? (h : a.InRange) (hq : q.limit = narrowLimit) (fallback : Nat) :
    Config.narrow? fallback (a.item? (.quantity q)) = some ((a.quantity q).getD fallback) :=
  number?_item? (fun n hn => hq ▸ h q n hn) fallback

theorem InRange.seed? (h : a.InRange) :
    Config.seed? (a.item? (.quantity .seed)) = some (a.quantity .seed) := by
  have hwide := h.wide? .seed 0
  cases hn : a.quantity .seed with
  | none => simp only [item?, hn, Option.map_none, Config.seed?]
  | some n =>
    have hitem : a.item? (.quantity .seed) = some (.integer n) := by
      simp only [item?, hn, Option.map_some]
    rw [hitem, hn] at hwide
    simp only [hitem, Config.seed?, hwide, Option.getD_some, Option.map_some]

theorem Holds.target? (h : a.Holds es) (hrange : a.InRange) :
    Config.target? (es.find? "target".toList) = some a.overlay.target := by
  have hread : parameters? ["base_url", "connect_timeout_ms", "ack_timeout_ms"]
      (es.find? "target".toList) = _ := h.parameters?_eq .target
  rw [Config.target?, hread]
  simp [Group.parameters, text?_item?, hrange.wide?, overlay]

theorem Holds.load? (h : a.Holds es) (hrange : a.InRange) :
    Config.load? (es.find? "load".toList) = some a.overlay.load := by
  have hread : parameters? ["total_messages", "queue_capacity", "rooms", "content_pool_size", "seed"]
      (es.find? "load".toList) = _ := h.parameters?_eq .load
  rw [Config.load?, hread]
  simp [Group.parameters, hrange.narrow? (q := .rooms) rfl, hrange.seed?, hrange.wide?, overlay]

theorem Holds.warmup? (h : a.Holds es) (hrange : a.InRange) :
    Config.warmup? (es.find? "warmup".toList) = some a.overlay.warmup := by
  have hread : parameters? ["threads", "messages_per_thread"] (es.find? "warmup".toList) = _ :=
    h.parameters?_eq .warmup
  rw [Config.warmup?, hread]
  simp [Group.parameters, hrange.wide?, overlay]

theorem Holds.mainPhase? (h : a.Holds es) (hrange : a.InRange) :
    Config.mainPhase? (es.find? "main_phase".toList) = some a.overlay.mainPhase := by
  have hread : parameters? ["threads"] (es.find? "main_phase".toList) = _ :=
    h.parameters?_eq .mainPhase
  rw [Config.mainPhase?, hread]
  simp [Group.parameters, hrange.wide?, overlay]

theorem Holds.retry? (h : a.Holds es) (hrange : a.InRange) :
    Config.retry? (es.find? "retry".toList) = some a.overlay.retry := by
  have hread : parameters? ["max_attempts", "base_backoff_ms"] (es.find? "retry".toList) = _ :=
    h.parameters?_eq .retry
  rw [Config.retry?, hread]
  simp [Group.parameters, hrange.narrow? (q := .maxAttempts) rfl, hrange.wide?, overlay]

theorem Holds.worker? (h : a.Holds es) (hrange : a.InRange) :
    Config.worker? (es.find? "worker".toList) = some a.overlay.worker := by
  have hread : parameters? ["poll_timeout_ms"] (es.find? "worker".toList) = _ :=
    h.parameters?_eq .worker
  rw [Config.worker?, hread]
  simp [Group.parameters, hrange.wide?, overlay]

/-- **The configuration in tables** whose names stand for what an assignment says. -/
theorem ofTables?_of_holds (h : a.Holds es) (hrange : a.InRange) :
    ofTables? es = some a.overlay := by
  simp only [ofTables?, h.target? hrange, h.load? hrange, h.warmup? hrange, h.mainPhase? hrange,
    h.retry? hrange, h.worker? hrange]
  rfl

end Assignment

end LoadRig.Config
