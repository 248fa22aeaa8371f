import Mathlib.Algebra.Order.Floor.Semiring
import Mathlib.Data.Rat.Floor
import Symphony.Lib.Runs
import Symphony.Lib.Table
import Symphony.Rust.Net
/-!
# The load of a worker thread

A slot's configured ids may come from another PID namespace, so the thread behind its socket
is discovered first: a connect gives the owner's pid, and procfs maps the configured ids to
the ids here. Sampling passes then read the thread's ticks. Passes, discoveries and changes of
the socket file come in any order, and a pass may come late.

What procfs shows, the inode of the socket file and the process views that other slots of the
same pass left behind are arguments of a pass; procfs is read at two moments, when a discovery
is applied and when the thread is read.
-/

namespace Symphony.Upstream

open Lib (Machine Table)
open IpAddr (digits)

/-! ## Procfs -/

structure TaskStat where
  ticks : Nat
  /-- Start time after boot, in clock ticks. -/
  start : Nat
  deriving DecidableEq, Repr

def parse_task_stat (content : Bytes) : Option TaskStat := do
  -- the command is in parentheses and may have one itself: the last one ends it
  let after_comm := trim_start (content.drop ((← rfind 41 content) + 1))
  let fields := split_whitespace after_comm
  let utime ← parse_u64 (← fields[11]?)
  let stime ← parse_u64 (← fields[12]?)
  let start ← parse_u64 (← fields[19]?)
  return ⟨(utime + stime) % 2 ^ 64, start⟩

/-- The `NSpid:` ids, outermost first. -/
def parse_nspid (status : Bytes) : Option (List Nat) := do
  let line ← (lines status).find? fun l => (bytes "NSpid:").isPrefixOf l
  let ids ← (split_whitespace (line.drop (bytes "NSpid:").length)).mapM parse_u32
  if ids.isEmpty then none else some ids

/-- What the files under `/proc` say, and which entries its directories have; an entry that
cannot be read has no name. -/
structure ProcFs where
  read_to_string : Bytes → Option Bytes
  read_dir : Bytes → Option (List (Option Bytes))

/-- `nested`: in a PID namespace below this one; otherwise `threads` is not read. -/
structure ProcessView where
  innermost_pid : Nat
  nested : Bool
  threads : Table Nat Nat

variable {pid tid : Nat} {stat : TaskStat}

namespace ProcFs

def task_stat (proc : ProcFs) (pid tid : Nat) : Option TaskStat := do
  parse_task_stat (← proc.read_to_string (digits 10 pid ++ bytes "/task/" ++ digits 10 tid ++ bytes "/stat"))

def nspid (proc : ProcFs) (path : Bytes) : Option (List Nat) := do parse_nspid (← proc.read_to_string path)

/-- The entry of one thread in the map from innermost ids to the ids here. -/
def add_thread (proc : ProcFs) (task : Bytes) (threads : Table Nat Nat) (entry : Option Bytes) : Table Nat Nat :=
  match entry with
  | none => threads
  | some name =>
    match proc.nspid (task ++ bytes "/" ++ name ++ bytes "/status") with
    | none => threads
    | some ids =>
      match ids.head?, ids.getLast? with
      | some host, some inner => threads.insert inner host
      | _, _ => threads

def process_view (proc : ProcFs) (host_pid : Nat) : Option ProcessView := do
  let nspid ← proc.nspid (digits 10 host_pid ++ bytes "/status")
  let innermost_pid ← nspid.getLast?
  if nspid.length = 1 then return ⟨innermost_pid, false, ∅⟩
  let task := digits 10 host_pid ++ bytes "/task"
  return ⟨innermost_pid, true, (← proc.read_dir task).foldl (proc.add_thread task) ∅⟩

end ProcFs

/-! ## Identities -/

inductive Identity where
  | Unresolved
  /-- Host ids of the thread, tied to the socket's owner. -/
  | Discovered (pid tid start : Nat)
  /-- The configured ids did not name the socket's owner. -/
  | Literal
  deriving DecidableEq, Repr

/-- The process views of a pass. -/
abbrev Views := Table Nat (Option ProcessView)

/-- `views.entry(owner).or_insert_with(..)`. -/
def view_of (owner : Nat) (proc : ProcFs) (views : Views) : Option ProcessView × Views :=
  match views.lookup owner with
  | some view => (view, views)
  | none => (proc.process_view owner, views.insert owner (proc.process_view owner))

/-- The thread's id here, where the configured ids name the owner; otherwise what they are. -/
def host_tid (configured_pid configured_tid owner : Nat) (view : ProcessView) : Except Identity Nat :=
  if view.innermost_pid = configured_pid && !view.nested then .ok configured_tid
  else if view.innermost_pid = configured_pid then
    match view.threads.lookup configured_tid with
    | some tid => .ok tid
    | none => .error .Unresolved
  else if owner = configured_pid then .ok configured_tid
  else .error .Literal

def resolve (configured_pid configured_tid owner : Nat) (proc : ProcFs) (views : Views) : Identity × Views :=
  match view_of owner proc views with
  | (none, views) => (.Unresolved, views)
  | (some view, views) =>
    match host_tid configured_pid configured_tid owner view with
    | .error identity => (identity, views)
    | .ok tid =>
      match proc.task_stat owner tid with
      | some stat => (.Discovered owner tid stat.start, views)
      | none => (.Unresolved, views)

/-! ## Sampling -/

def SAMPLE_VALID_NS : Nat := 1000000000
def DISCOVERY_RETRY_NS : Nat := 5000000000
def OWNER_RECHECK_NS : Nat := 30000000000

/-- The socket owner's pid, if the connect went through, and the inode read before it. -/
structure Discovery where
  owner : Option Nat
  inode : Option Nat
  deriving DecidableEq, Repr

structure SampleState where
  identity : Identity
  next_discovery_ns : Nat := 0
  discovered : Option Discovery := none
  inode : Option Nat := none
  next_recheck_ns : Nat := U64_MAX
  owner_changed : Bool := false
  last_pass_ns : Nat := 0
  last_ticks : Nat := 0
  /-- Time of the last successful read; 0 = no baseline. -/
  last_ns : Nat := 0
  /-- End of the window in which the latest sample counts as load; 0 = none. -/
  valid_until_ns : Nat := 0
  util_permille : Nat := 0
  deriving DecidableEq, Repr

/-- The configured ids, the utilisation for the balancer's tiebreak, and the state. -/
structure ThreadCpu where
  pid : Nat
  tid : Nat
  util_permille : Nat := 0
  state : SampleState
  deriving DecidableEq, Repr

/-- The machine: whether it is Linux, `clk_tck_hz`, and how its doubles round. -/
structure Host where
  linux : Bool
  clk_tck_hz : Nat
  round : ℚ → ℚ

/-- What a pass finds. -/
structure Pass where
  now : Nat
  /-- Procfs while a discovery is applied, and the views known so far. -/
  resolving : ProcFs
  views : Views
  /-- `socket_inode`. -/
  inode : Option Nat
  /-- Procfs when the thread is read. -/
  reading : ProcFs

/-- What a pass did: it came late, or how its read went; `read` has the identity, what was read,
`owner_changed`, and the utilisation if it was computed. -/
inductive Sampled where
  | ignored
  | unresolved
  | unreadable
  | read (identity : Identity) (stat : TaskStat) (owner_changed : Bool) (util : Option Nat)
  deriving DecidableEq, Repr

/-- The utilisation in permille, in doubles. -/
def Host.util (host : Host) (delta_ticks delta_ns : Nat) : Nat :=
  let delta_secs := host.round (host.round delta_ns / 1000000000)
  let busy := host.round (host.round delta_ticks / host.round (delta_secs * host.round host.clk_tck_hz))
  ⌊min (host.round (busy * 1000)) 1000⌋₊

namespace ThreadCpu

def new (host : Host) (pid tid : Nat) : ThreadCpu :=
  { pid, tid, state := { identity := if host.linux then .Unresolved else .Literal } }

def begin_discovery (host : Host) (c : ThreadCpu) (now : Nat) : Bool × ThreadCpu :=
  if !host.linux || decide (now < c.state.next_discovery_ns) then (false, c)
  else (true, { c with state := { c.state with next_discovery_ns := sat_add64 now DISCOVERY_RETRY_NS } })

def finish_discovery (c : ThreadCpu) (discovery : Discovery) : ThreadCpu :=
  { c with state := { c.state with discovered := some discovery } }

/-- `apply_discovery`, once the owner is known and `identity` is what its pid resolves to. -/
def apply_identity (state : SampleState) (identity : Identity) (inode : Option Nat) (now : Nat) : SampleState :=
  let state := { state with owner_changed := false }
  let state :=
    if identity = .Unresolved then
      { state with next_discovery_ns := sat_add64 now DISCOVERY_RETRY_NS, next_recheck_ns := U64_MAX }
    else { state with next_discovery_ns := U64_MAX, next_recheck_ns := sat_add64 now OWNER_RECHECK_NS, inode }
  if identity = state.identity then state else { state with identity, last_ns := 0, valid_until_ns := 0 }

def apply_discovery (c : ThreadCpu) (state : SampleState) (discovery : Discovery) (pass : Pass) : SampleState :=
  match discovery.owner with
  -- a connect that fails proves nothing about who owns the socket
  | none => { state with next_discovery_ns := sat_add64 pass.now DISCOVERY_RETRY_NS }
  | some owner =>
    apply_identity state (resolve c.pid c.tid owner pass.resolving pass.views).1 discovery.inode pass.now

/-- Look at the socket file again, when it is time to. -/
def recheck (state : SampleState) (pass : Pass) : SampleState :=
  if state.next_recheck_ns ≤ pass.now then
    let state := { state with next_recheck_ns := sat_add64 pass.now OWNER_RECHECK_NS }
    if pass.inode = state.inode then state
    else { state with next_discovery_ns := pass.now, owner_changed := true, valid_until_ns := 0 }
  else state

/-- `sample`, up to the read: whom the pass reads is settled. -/
def settle (c : ThreadCpu) (pass : Pass) : SampleState :=
  let state := { c.state with last_pass_ns := pass.now }
  let state := match state.discovered with
    | some discovery => c.apply_discovery { state with discovered := none } discovery pass
    | none => state
  recheck state pass

/-- The ids that a pass reads, and the start time they must have. -/
def target (c : ThreadCpu) : Identity → Option (Nat × Nat × Option Nat)
  | .Discovered pid tid start => some (pid, tid, some start)
  | .Literal => some (c.pid, c.tid, none)
  | .Unresolved => none

/-- The thread cannot be read any more. -/
def lose (state : SampleState) (start : Option Nat) (now : Nat) : SampleState :=
  let state := { state with last_ns := 0, valid_until_ns := 0, util_permille := 0 }
  if start.isSome then { state with identity := .Unresolved, next_discovery_ns := now, next_recheck_ns := U64_MAX }
  else state

/-- The thread was read. -/
def record_read (host : Host) (state : SampleState) (start : Option Nat) (stat : TaskStat) (now : Nat) :
    Option Nat × SampleState :=
  if state.last_ns > 0 then
    let util := host.util (stat.ticks - state.last_ticks) (now - state.last_ns)
    let valid_until_ns :=
      if start.isSome && !state.owner_changed then (now + SAMPLE_VALID_NS) % 2 ^ 64 else state.valid_until_ns
    (some util, { state with util_permille := util, valid_until_ns, last_ticks := stat.ticks, last_ns := now })
  else (none, { state with last_ticks := stat.ticks, last_ns := now })

def sample (host : Host) (c : ThreadCpu) (pass : Pass) : Sampled × ThreadCpu :=
  if pass.now ≤ c.state.last_pass_ns then (.ignored, c)
  else
    let state := c.settle pass
    match c.target state.identity with
    | none => (.unresolved, { c with util_permille := 0, state := { state with util_permille := 0 } })
    | some (pid, tid, start) =>
      match (pass.reading.task_stat pid tid).filter fun stat => start.all (· == stat.start) with
      | none => (.unreadable, { c with util_permille := 0, state := lose state start pass.now })
      | some stat =>
        let (util, next) := record_read host state start stat pass.now
        (.read state.identity stat state.owner_changed util,
          { c with util_permille := util.getD c.util_permille, state := next })

def load_sample (c : ThreadCpu) (now : Nat) : Option Nat :=
  if now < c.state.valid_until_ns then some c.state.util_permille else none

end ThreadCpu

/-! ## Runs -/

inductive CpuEvent where
  | pass (pass : Pass)
  | begin_discovery (now : Nat)
  | finish_discovery (discovery : Discovery)

/-- What an event shows of a pass; the other two show nothing. -/
def ThreadCpu.step (host : Host) (c : ThreadCpu) : CpuEvent → Option Sampled × ThreadCpu
  | .pass pass => ((c.sample host pass).1, (c.sample host pass).2)
  | .begin_discovery now => (none, (c.begin_discovery host now).2)
  | .finish_discovery discovery => (none, c.finish_discovery discovery)

/-- Passes and discoveries of one thread, at any readings. -/
def sampling (host : Host) : Machine ThreadCpu CpuEvent (Option Sampled) where
  reading _ := none
  step := ThreadCpu.step host

/-! ## The state between passes -/

namespace SampleState

/-- A load window is open only for a discovered thread that has a baseline and whose socket file
has not changed; without an identity there is no baseline. -/
structure Sound (s : SampleState) : Prop where
  unresolved : s.identity = .Unresolved → s.last_ns = 0
  window : s.valid_until_ns ≠ 0 → s.last_ns ≠ 0 ∧ s.owner_changed = false ∧
    ∃ pid tid start, s.identity = .Discovered pid tid start

/-- What is left of a baseline is of the same thread. -/
def KeepsBaseline (s s' : SampleState) : Prop :=
  s'.last_ns ≠ 0 → s'.identity = s.identity ∧ s'.last_ns = s.last_ns ∧ s'.last_ticks = s.last_ticks

end SampleState

section Settle

open ThreadCpu

variable {s s' : SampleState} {c : ThreadCpu} {pass : Pass}

theorem sound_of_no_baseline (hlast : s.last_ns = 0) (hvalid : s.valid_until_ns = 0) : s.Sound :=
  ⟨fun _ => hlast, fun hopen => absurd hvalid hopen⟩

/-- Only times, the inode and `owner_changed` were written, and that only to `false`. -/
theorem SampleState.Sound.same (h : s.Sound) (hid : s'.identity = s.identity) (hlast : s'.last_ns = s.last_ns)
    (hvalid : s'.valid_until_ns = s.valid_until_ns)
    (hchanged : s'.owner_changed = s.owner_changed ∨ s'.owner_changed = false) : s'.Sound := by
  refine ⟨fun hun => hlast.trans (h.unresolved (hid.symm.trans hun)), ?_⟩
  intro hopen
  rw [hvalid] at hopen
  obtain ⟨hne, hkept, hthread⟩ := h.window hopen
  rw [hid, hlast]
  exact ⟨hne, hchanged.elim (·.trans hkept) id, hthread⟩

theorem apply_identity_sound (h : s.Sound) (identity : Identity) (inode : Option Nat) (now : Nat) :
    (apply_identity s identity inode now).Sound ∧ s.KeepsBaseline (apply_identity s identity inode now) := by
  unfold apply_identity
  by_cases hid : identity = .Unresolved <;> by_cases hsame : identity = s.identity
  all_goals simp only [hid, if_true, if_false] at *
  · rw [if_pos hsame]
    exact ⟨h.same rfl rfl rfl (.inr rfl), fun _ => ⟨rfl, rfl, rfl⟩⟩
  · rw [if_neg hsame]
    exact ⟨sound_of_no_baseline rfl rfl, fun hne => absurd rfl hne⟩
  · rw [if_pos hsame]
    exact ⟨h.same rfl rfl rfl (.inr rfl), fun _ => ⟨rfl, rfl, rfl⟩⟩
  · rw [if_neg hsame]
    exact ⟨sound_of_no_baseline rfl rfl, fun hne => absurd rfl hne⟩

theorem recheck_sound (h : s.Sound) (pass : Pass) : (recheck s pass).Sound ∧ s.KeepsBaseline (recheck s pass) := by
  unfold recheck
  split
  · dsimp only
    split
    · exact ⟨h.same rfl rfl rfl (.inl rfl), fun _ => ⟨rfl, rfl, rfl⟩⟩
    · exact ⟨⟨h.unresolved, fun hopen => absurd rfl hopen⟩, fun _ => ⟨rfl, rfl, rfl⟩⟩
  · exact ⟨h, fun _ => ⟨rfl, rfl, rfl⟩⟩

theorem apply_discovery_sound (h : s.Sound) (c : ThreadCpu) (discovery : Discovery) (pass : Pass) :
    (c.apply_discovery s discovery pass).Sound ∧ s.KeepsBaseline (c.apply_discovery s discovery pass) := by
  unfold apply_discovery
  split
  · exact ⟨h.same rfl rfl rfl (.inl rfl), fun _ => ⟨rfl, rfl, rfl⟩⟩
  · exact apply_identity_sound h _ _ _

/-- Settling whom to read keeps the state sound, and a baseline only with its thread. -/
theorem settle_sound (h : c.state.Sound) (pass : Pass) :
    (c.settle pass).Sound ∧ c.state.KeepsBaseline (c.settle pass) := by
  have hstart : ({ c.state with last_pass_ns := pass.now } : SampleState).Sound := h.same rfl rfl rfl (.inl rfl)
  unfold settle
  dsimp only
  split
  · next discovery _ =>
    have htaken : ({ c.state with last_pass_ns := pass.now, discovered := none } : SampleState).Sound :=
      h.same rfl rfl rfl (.inl rfl)
    obtain ⟨hsound, hkeeps⟩ := apply_discovery_sound htaken c discovery pass
    obtain ⟨hsound', hkeeps'⟩ := recheck_sound hsound pass
    refine ⟨hsound', fun hne => ?_⟩
    obtain ⟨hid', hlast', hticks'⟩ := hkeeps' hne
    rw [hlast'] at hne
    obtain ⟨hid, hlast, hticks⟩ := hkeeps hne
    exact ⟨hid'.trans hid, hlast'.trans hlast, hticks'.trans hticks⟩
  · exact recheck_sound hstart pass

theorem recheck_frame (s : SampleState) (pass : Pass) :
    (recheck s pass).last_pass_ns = s.last_pass_ns ∧ (recheck s pass).identity = s.identity ∧
      (recheck s pass).discovered = s.discovered := by
  unfold recheck
  split
  · dsimp only
    split <;> exact ⟨rfl, rfl, rfl⟩
  · exact ⟨rfl, rfl, rfl⟩

theorem apply_identity_frame (s : SampleState) (identity : Identity) (inode : Option Nat) (now : Nat) :
    (apply_identity s identity inode now).last_pass_ns = s.last_pass_ns ∧
      (apply_identity s identity inode now).identity = identity ∧
      (apply_identity s identity inode now).discovered = s.discovered := by
  unfold apply_identity
  dsimp only
  split
  · split
    · next h => exact ⟨rfl, h.symm, rfl⟩
    · exact ⟨rfl, rfl, rfl⟩
  · split
    · next h => exact ⟨rfl, h.symm, rfl⟩
    · exact ⟨rfl, rfl, rfl⟩

theorem settle_frame (c : ThreadCpu) (pass : Pass) :
    (c.settle pass).last_pass_ns = pass.now ∧ (c.settle pass).discovered = none := by
  unfold settle
  dsimp only
  split
  · unfold apply_discovery
    split
    · obtain ⟨hpass, -, htaken⟩ := recheck_frame _ pass
      exact ⟨hpass, htaken⟩
    · obtain ⟨hpass, -, htaken⟩ := recheck_frame _ pass
      obtain ⟨hpass', -, htaken'⟩ := apply_identity_frame _ _ _ _
      exact ⟨hpass.trans hpass', htaken.trans htaken'⟩
  · next hnone =>
    obtain ⟨hpass, -, htaken⟩ := recheck_frame _ pass
    exact ⟨hpass, htaken.trans hnone⟩

/-! ### Who was discovered -/

/-- A discovered thread is one of the socket's owner, and was there under its start time. -/
theorem resolve_discovered {configured_pid configured_tid owner start : Nat} {proc : ProcFs} {views : Views}
    (h : (resolve configured_pid configured_tid owner proc views).1 = .Discovered pid tid start) :
    pid = owner ∧ (proc.task_stat pid tid).map (·.start) = some start := by
  unfold resolve at h
  split at h
  · cases h
  · split at h
    · next hid =>
      -- the ids that were given up on are no discovered thread
      dsimp only at h
      rw [h] at hid
      unfold host_tid at hid
      split at hid
      · cases hid
      · split at hid
        · split at hid <;> cases hid
        · split at hid <;> cases hid
    · split at h
      · next hstat =>
        cases h
        rw [hstat]
        exact ⟨rfl, rfl⟩
      · cases h

/-- A thread that a pass reads was known before, or its process is the owner that the latest
discovery found. -/
theorem settle_discovered {start : Nat} (h : (c.settle pass).identity = .Discovered pid tid start) :
    c.state.identity = .Discovered pid tid start ∨
      ∃ discovery, c.state.discovered = some discovery ∧ discovery.owner = some pid := by
  unfold settle at h
  rw [(recheck_frame _ pass).2.1] at h
  dsimp only at h
  split at h
  · next discovery hdiscovered =>
    unfold apply_discovery at h
    split at h
    · exact .inl h
    · next owner howner =>
      rw [(apply_identity_frame _ _ _ _).2.1] at h
      obtain ⟨rfl, -⟩ := resolve_discovered h
      exact .inr ⟨discovery, hdiscovered, howner⟩
  · exact .inl h

end Settle

/-! ## What a pass does -/

section Effects

open ThreadCpu

variable {host : Host} {c c' : ThreadCpu} {pass : Pass} {a : Sampled}

/-- What a pass can do. -/
inductive Effect (host : Host) (c : ThreadCpu) (pass : Pass) : Sampled → ThreadCpu → Prop
  | ignored (h : pass.now ≤ c.state.last_pass_ns) : Effect host c pass .ignored c
  | unresolved (h : c.state.last_pass_ns < pass.now) (hid : (c.settle pass).identity = .Unresolved) :
    Effect host c pass .unresolved
      { c with util_permille := 0, state := { c.settle pass with util_permille := 0 } }
  | unreadable (h : c.state.last_pass_ns < pass.now) (start : Option Nat) :
    Effect host c pass .unreadable { c with util_permille := 0, state := lose (c.settle pass) start pass.now }
  | read {pid tid : Nat} {start : Option Nat} {stat : TaskStat} (h : c.state.last_pass_ns < pass.now)
      (htarget : c.target (c.settle pass).identity = some (pid, tid, start))
      (hstat : pass.reading.task_stat pid tid = some stat) (hstart : start.all (· == stat.start) = true) :
    Effect host c pass
      (.read (c.settle pass).identity stat (c.settle pass).owner_changed
        (record_read host (c.settle pass) start stat pass.now).1)
      { c with
        util_permille := (record_read host (c.settle pass) start stat pass.now).1.getD c.util_permille
        state := (record_read host (c.settle pass) start stat pass.now).2 }

theorem target_none {identity : Identity} (h : c.target identity = none) : identity = .Unresolved := by
  cases identity with
  | Unresolved => rfl
  | Discovered pid tid start => cases h
  | Literal => cases h

theorem sample_effect (host : Host) (c : ThreadCpu) (pass : Pass) :
    Effect host c pass (c.sample host pass).1 (c.sample host pass).2 := by
  unfold sample
  split
  · next hlate => exact .ignored hlate
  · next hlate =>
    have hnew : c.state.last_pass_ns < pass.now := Nat.lt_of_not_le hlate
    dsimp only
    split
    · next htarget => exact .unresolved hnew (target_none htarget)
    · next pid tid start htarget =>
      split
      · exact .unreadable hnew start
      · next stat hstat =>
        obtain ⟨hread, hstart⟩ := Option.filter_eq_some_iff.mp hstat
        exact .read hnew htarget hread hstart

theorem target_start {identity : Identity} {start : Nat} (h : c.target identity = some (pid, tid, some start)) :
    identity = .Discovered pid tid start := by
  cases identity with
  | Unresolved => cases h
  | Discovered pid' tid' start' =>
    cases h
    rfl
  | Literal => cases h

theorem record_read_frame (host : Host) (s : SampleState) (start : Option Nat) (stat : TaskStat) (now : Nat) :
    let next := (record_read host s start stat now).2
    next.identity = s.identity ∧ next.last_ns = now ∧ next.last_ticks = stat.ticks ∧
      next.last_pass_ns = s.last_pass_ns ∧ next.discovered = s.discovered ∧ next.owner_changed = s.owner_changed := by
  unfold record_read
  split <;> exact ⟨rfl, rfl, rfl, rfl, rfl, rfl⟩

/-- A window that is open after a read was opened by it: for a discovered thread with a baseline,
its socket file unchanged, with the utilisation since the baseline. -/
theorem record_read_window {s : SampleState} {now : Nat} {start : Option Nat} (hs : s.Sound)
    (htarget : c.target s.identity = some (pid, tid, start))
    (hopen : (record_read host s start stat now).2.valid_until_ns ≠ 0) :
    start.isSome = true ∧ s.owner_changed = false ∧ s.last_ns ≠ 0 ∧
      record_read host s start stat now = (some (host.util (stat.ticks - s.last_ticks) (now - s.last_ns)),
        { s with
          util_permille := host.util (stat.ticks - s.last_ticks) (now - s.last_ns)
          valid_until_ns := (now + SAMPLE_VALID_NS) % 2 ^ 64
          last_ticks := stat.ticks
          last_ns := now }) := by
  -- a window from before would be of such a thread, and is opened anew
  have hbefore : s.valid_until_ns ≠ 0 → start.isSome = true ∧ s.owner_changed = false ∧ s.last_ns ≠ 0 := by
    intro hvalid
    obtain ⟨hlast, hchanged, pid', tid', start', hid⟩ := hs.window hvalid
    rw [hid] at htarget
    cases htarget
    exact ⟨rfl, hchanged, hlast⟩
  unfold record_read at hopen ⊢
  by_cases hlast : s.last_ns > 0
  · simp only [hlast, if_true] at hopen ⊢
    by_cases hcond : (start.isSome && !s.owner_changed) = true
    · rw [if_pos hcond]
      rw [Bool.and_eq_true, Bool.not_eq_true'] at hcond
      exact ⟨hcond.1, hcond.2, Nat.ne_of_gt hlast, rfl⟩
    · rw [if_neg hcond] at hopen
      obtain ⟨hstart, hchanged, -⟩ := hbefore hopen
      rw [hstart, hchanged] at hcond
      exact absurd rfl hcond
  · rw [if_neg hlast] at hopen
    obtain ⟨-, -, hne⟩ := hbefore hopen
    exact absurd (Nat.pos_of_ne_zero hne) hlast

end Effects

/-! ## What a load rests on -/

section Vouched

open ThreadCpu

/-- A thread of this machine. -/
structure Thread where
  pid : Nat
  tid : Nat
  start : Nat

def Thread.identity (t : Thread) : Identity := .Discovered t.pid t.tid t.start

/-- A read that a pass made, after the entries `past`. -/
structure Read where
  past : List (CpuEvent × Option Sampled)
  pass : Pass
  stat : TaskStat
  owner_changed : Bool
  util : Option Nat

/-- The read is in the log and was of the thread, and every later pass came late. -/
structure Read.Last (r : Read) (t : Thread) (log : List (CpuEvent × Option Sampled)) : Prop where
  last : ∃ rest, log = r.past ++ (.pass r.pass, some (.read t.identity r.stat r.owner_changed r.util)) :: rest ∧
    ∀ q a, (.pass q, a) ∈ rest → a = some .ignored
  stat : r.pass.reading.task_stat t.pid t.tid = some r.stat
  start : r.stat.start = t.start

/-- The value `v` was computed by the read `r` from the read `r₀` before it, both of the thread
and at different times, when no change of the socket file was pending. -/
structure Vouched (host : Host) (t : Thread) (r r₀ : Read) (log : List (CpuEvent × Option Sampled)) (v : Nat) :
    Prop where
  last : r.Last t log
  unchanged : r.owner_changed = false
  util : r.util = some v
  baseline : r₀.Last t r.past
  later : r₀.pass.now < r.pass.now
  value : v = host.util (r.stat.ticks - r₀.stat.ticks) (r.pass.now - r₀.pass.now)

/-- What the log says of the state. -/
structure Traced (host : Host) (c : ThreadCpu) (log : List (CpuEvent × Option Sampled)) : Prop where
  sound : c.state.Sound
  last : c.state.last_ns ≤ c.state.last_pass_ns
  found : ∀ discovery, c.state.discovered = some discovery → (.finish_discovery discovery, none) ∈ log
  owner : ∀ t : Thread, c.state.identity = t.identity →
    ∃ discovery, (.finish_discovery discovery, none) ∈ log ∧ discovery.owner = some t.pid
  baseline : ∀ t : Thread, c.state.identity = t.identity → c.state.last_ns ≠ 0 →
    ∃ r : Read, r.Last t log ∧ r.pass.now = c.state.last_ns ∧ r.stat.ticks = c.state.last_ticks
  window : ∀ t : Thread, c.state.identity = t.identity → c.state.valid_until_ns ≠ 0 →
    ∃ r r₀, Vouched host t r r₀ log c.state.util_permille ∧
      c.state.valid_until_ns = (r.pass.now + SAMPLE_VALID_NS) % 2 ^ 64

variable {host : Host} {c c' : ThreadCpu} {t : Thread} {r r₀ : Read} {log : List (CpuEvent × Option Sampled)}
  {x : CpuEvent × Option Sampled} {pass : Pass} {a : Sampled}

theorem Read.Last.keep (h : r.Last t log) (hx : ∀ q a, x = (.pass q, a) → a = some .ignored) :
    r.Last t (log ++ [x]) := by
  obtain ⟨⟨rest, rfl, hlate⟩, hstat, hstart⟩ := h
  refine ⟨⟨rest ++ [x], by simp, ?_⟩, hstat, hstart⟩
  intro q a hmem
  rcases List.mem_append.mp hmem with hold | hnew
  · exact hlate q a hold
  · exact hx q a (List.mem_singleton.mp hnew).symm

theorem Read.Last.start_now {changed : Bool} {util : Option Nat}
    (hstat : pass.reading.task_stat t.pid t.tid = some stat) (hstart : stat.start = t.start) :
    (⟨log, pass, stat, changed, util⟩ : Read).Last t
      (log ++ [(.pass pass, some (.read t.identity stat changed util))]) :=
  ⟨⟨[], rfl, nofun⟩, hstat, hstart⟩

section

variable (h : Traced host c log)

include h

theorem Traced.keep (hx : ∀ q a, x = (.pass q, a) → a = some .ignored)
    (hid : c'.state.identity = c.state.identity) (hlast : c'.state.last_ns = c.state.last_ns)
    (hpass : c'.state.last_pass_ns = c.state.last_pass_ns) (hticks : c'.state.last_ticks = c.state.last_ticks)
    (hvalid : c'.state.valid_until_ns = c.state.valid_until_ns)
    (hutil : c'.state.util_permille = c.state.util_permille)
    (hchanged : c'.state.owner_changed = c.state.owner_changed)
    (hfound : ∀ discovery, c'.state.discovered = some discovery →
      c.state.discovered = some discovery ∨ x = (.finish_discovery discovery, none)) :
    Traced host c' (log ++ [x]) := by
  refine ⟨h.sound.same hid hlast hvalid (.inl hchanged), ?_, ?_, ?_, ?_, ?_⟩
  · rw [hlast, hpass]
    exact h.last
  · intro discovery hd
    rcases hfound discovery hd with hold | rfl
    · exact List.mem_append_left _ (h.found discovery hold)
    · exact List.mem_append_right _ (List.mem_singleton.mpr rfl)
  · intro t ht
    obtain ⟨discovery, hmem, howner⟩ := h.owner t (hid.symm.trans ht)
    exact ⟨discovery, List.mem_append_left _ hmem, howner⟩
  · intro t ht hne
    rw [hlast] at hne ⊢
    obtain ⟨r, hr, hnow, hstat⟩ := h.baseline t (hid.symm.trans ht) hne
    exact ⟨r, hr.keep hx, hnow, hstat.trans hticks.symm⟩
  · intro t ht hopen
    rw [hvalid] at hopen ⊢
    obtain ⟨r, r₀, hv, huntil⟩ := h.window t (hid.symm.trans ht) hopen
    rw [hutil]
    exact ⟨r, r₀, { hv with last := hv.last.keep hx }, huntil⟩

/-- The thread that a pass settles on belongs to an owner that a discovery found. -/
theorem Traced.settled_owner (ht : (c.settle pass).identity = t.identity) :
    ∃ discovery, (.finish_discovery discovery, none) ∈ log ++ [x] ∧ discovery.owner = some t.pid := by
  rcases settle_discovered ht with hold | ⟨discovery, hd, howner⟩
  · obtain ⟨discovery, hmem, howner⟩ := h.owner t hold
    exact ⟨discovery, List.mem_append_left _ hmem, howner⟩
  · exact ⟨discovery, List.mem_append_left _ (h.found discovery hd), howner⟩

theorem Traced.lost (pass : Pass) (hlast : c'.state.last_ns = 0)
    (hvalid : c'.state.valid_until_ns = 0) (hfound : c'.state.discovered = none)
    (hid : c'.state.identity = (c.settle pass).identity ∨ c'.state.identity = .Unresolved) :
    Traced host c' (log ++ [x]) := by
  refine ⟨sound_of_no_baseline hlast hvalid, ?_, ?_, ?_, fun t ht hne => absurd hlast hne,
    fun t ht hopen => absurd hvalid hopen⟩
  · rw [hlast]
    exact Nat.zero_le _
  · intro discovery hd
    rw [hfound] at hd
    cases hd
  · intro t ht
    rcases hid with hsame | hnone
    · exact h.settled_owner (hsame.symm.trans ht)
    · rw [hnone] at ht
      cases ht

/-- A pass that reads a thread. Its baseline, if the settled state has one, is the last read
before, of the same thread. -/
theorem Traced.measured {start : Option Nat} (hnew : c.state.last_pass_ns < pass.now)
    (htarget : c.target (c.settle pass).identity = some (pid, tid, start))
    (hstat : pass.reading.task_stat pid tid = some stat) (hstart : start.all (· == stat.start) = true)
    (hnext : c'.state = (record_read host (c.settle pass) start stat pass.now).2) :
    Traced host c' (log ++ [(.pass pass, some (.read (c.settle pass).identity stat (c.settle pass).owner_changed
      (record_read host (c.settle pass) start stat pass.now).1))]) := by
  obtain ⟨hsound, hkeeps⟩ := settle_sound h.sound pass
  obtain ⟨hpass, htaken⟩ := settle_frame c pass
  obtain ⟨hid, hlast, hticks, hpass', htaken', hchanged⟩ := record_read_frame host (c.settle pass) start stat pass.now
  -- what was read, when the pass settled on the thread `t`
  have hthread : ∀ t : Thread, (c.settle pass).identity = t.identity →
      pass.reading.task_stat t.pid t.tid = some stat ∧ stat.start = t.start := by
    intro t ht
    rw [ht] at htarget
    cases htarget
    exact ⟨hstat, (beq_iff_eq.mp hstart).symm⟩
  refine ⟨⟨?_, ?_⟩, ?_, ?_, ?_, ?_, ?_⟩
  all_goals rw [hnext]
  · intro hun
    rw [hid.symm.trans hun] at htarget
    cases htarget
  · intro hopen
    obtain ⟨hsome, hunchanged, -, -⟩ := record_read_window hsound htarget hopen
    obtain ⟨start', rfl⟩ := Option.isSome_iff_exists.mp hsome
    refine ⟨?_, hchanged.trans hunchanged, pid, tid, start', hid.trans (target_start htarget)⟩
    rw [hlast]
    omega
  · exact Nat.le_of_eq (hlast.trans (hpass.symm.trans hpass'.symm))
  · intro discovery hd
    rw [htaken', htaken] at hd
    cases hd
  · exact fun t ht => h.settled_owner (hid.symm.trans ht)
  · intro t ht _
    have ht := hid.symm.trans ht
    obtain ⟨hread, hsame⟩ := hthread t ht
    rw [ht]
    exact ⟨_, Read.Last.start_now hread hsame, hlast.symm, hticks.symm⟩
  · intro t ht hopen
    have ht := hid.symm.trans ht
    obtain ⟨hread, hsame⟩ := hthread t ht
    obtain ⟨-, hunchanged, hne, hrecord⟩ := record_read_window hsound htarget hopen
    obtain ⟨hid', hlast', hticks'⟩ := hkeeps hne
    rw [hlast'] at hne
    obtain ⟨r₀, hr₀, hnow₀, hstat₀⟩ := h.baseline t (hid'.symm.trans ht) hne
    rw [ht, hunchanged, hrecord]
    refine ⟨⟨log, pass, stat, false, _⟩, r₀, ⟨Read.Last.start_now hread hsame, rfl, rfl, hr₀, ?_, ?_⟩, rfl⟩
    · have hle := h.last
      dsimp only
      omega
    · dsimp only
      rw [hnow₀, hstat₀, hlast', hticks']

theorem Traced.sampled (he : Effect host c pass a c') :
    Traced host c' (log ++ [(.pass pass, some a)]) := by
  obtain ⟨hsound, -⟩ := settle_sound h.sound pass
  obtain ⟨-, htaken⟩ := settle_frame c pass
  cases he with
  | ignored hlate =>
    refine h.keep ?_ rfl rfl rfl rfl rfl rfl rfl fun _ hd => .inl hd
    intro q b hq
    cases hq
    rfl
  | unresolved hnew hid =>
    refine h.lost pass (hsound.unresolved hid) ?_ htaken (.inl rfl)
    by_contra hopen
    obtain ⟨-, -, pid, tid, start, hthread⟩ := hsound.window hopen
    rw [hid] at hthread
    cases hthread
  | unreadable hnew start =>
    unfold lose
    cases start with
    | none => exact h.lost pass rfl rfl htaken (.inl rfl)
    | some start => exact h.lost pass rfl rfl htaken (.inr rfl)
  | read hnew htarget hstat hstart => exact h.measured hnew htarget hstat hstart rfl

end

theorem run_traced {clock : Nat} (h : (sampling host).Run (.new host pid tid) c clock log) :
    Traced host c log := by
  refine Machine.Run.inv (M := sampling host) (fun c _ log => Traced host c log) ?_ ?_ h
  · refine ⟨sound_of_no_baseline rfl rfl, Nat.le_refl _, nofun, ?_, fun t ht hne => absurd rfl hne,
      fun t ht hopen => absurd rfl hopen⟩
    intro t ht
    unfold ThreadCpu.new at ht
    cases hlinux : host.linux <;> simp [hlinux, Thread.identity] at ht
  · intro c _ log e hc _
    cases e with
    | pass pass => exact hc.sampled (sample_effect host c pass)
    | begin_discovery now =>
      have hstate : ∃ next, (c.begin_discovery host now).2.state = { c.state with next_discovery_ns := next } := by
        unfold begin_discovery
        split
        · exact ⟨c.state.next_discovery_ns, rfl⟩
        · exact ⟨_, rfl⟩
      obtain ⟨next, hnext⟩ := hstate
      refine hc.keep nofun ?_ ?_ ?_ ?_ ?_ ?_ ?_ ?_
      all_goals simp only [sampling, ThreadCpu.step, hnext]
      exact fun _ hd => .inl hd
    | finish_discovery discovery =>
      refine hc.keep nofun rfl rfl rfl rfl rfl rfl rfl ?_
      intro discovery' hd
      cases hd
      exact .inr rfl

/-- In every run, a load is reported only within its time of the last pass that did anything, and
that pass computed it from two reads of one thread: the discovered one, of an owner of the
socket, with its start time, and no change of the socket file pending. -/
theorem load_of_discovered {pid tid clock now v : Nat} (h : (sampling host).Run (.new host pid tid) c clock log)
    (hv : c.load_sample now = some v) :
    ∃ t r r₀, Vouched host t r r₀ log v ∧ now < r.pass.now + SAMPLE_VALID_NS ∧ c.state.identity = t.identity ∧
      ∃ discovery, (.finish_discovery discovery, none) ∈ log ∧ discovery.owner = some t.pid := by
  have hall := run_traced h
  unfold load_sample at hv
  split at hv
  · next hnow =>
    obtain rfl := Option.some.inj hv
    have hopen : c.state.valid_until_ns ≠ 0 := by omega
    obtain ⟨-, -, pid', tid', start, hid⟩ := hall.sound.window hopen
    obtain ⟨r, r₀, hvouched, huntil⟩ := hall.window ⟨pid', tid', start⟩ hid hopen
    refine ⟨⟨pid', tid', start⟩, r, r₀, hvouched, ?_, hid, hall.owner ⟨pid', tid', start⟩ hid⟩
    have hle := Nat.mod_le (r.pass.now + SAMPLE_VALID_NS) (2 ^ 64)
    omega
  · cases hv

/-- Process 42, which is 7 in a namespace of its own; its thread 45 is 9 there and has run for
`ticks`. -/
def nestedProc (ticks : String) : ProcFs where
  read_to_string path :=
    if path = bytes "42/status" then some (bytes "Name:\tnode\nNSpid:\t42\t7\n")
    else if path = bytes "42/task/45/status" then some (bytes "NSpid:\t45\t9\n")
    else if path = bytes "42/task/45/stat" then
      some (bytes "45 (a) b) S 1 1 1 0 -1 0 0 0 0 0 " ++ bytes ticks ++ bytes " 0 0 0 20 0 4 0 777 0 0\n")
    else none
  read_dir path := if path = bytes "42/task" then some [some (bytes "42"), none, some (bytes "45")] else none

def nestedPass (now : Nat) (ticks : String) : CpuEvent :=
  .pass ⟨now, nestedProc ticks, ∅, some 5, nestedProc ticks⟩

/-- A discovery, two passes a second apart and one that comes late. -/
def nestedRun : List CpuEvent :=
  [.finish_discovery ⟨some 42, some 5⟩, nestedPass 1000000000 "100", nestedPass 2000000000 "150",
    nestedPass 1500000000 "999"]

theorem nested_load :
    let host : Host := ⟨true, 100, id⟩
    let c := ((sampling host).exec (.new host 7 9) nestedRun).2
    let log := ((sampling host).exec (.new host 7 9) nestedRun).1
    c.load_sample 2900000000 = some 500 ∧ c.load_sample 3000000000 = none ∧
      ∃ t r r₀, Vouched host t r r₀ log 500 ∧ 2900000000 < r.pass.now + SAMPLE_VALID_NS ∧
        c.state.identity = t.identity ∧
        ∃ discovery, (.finish_discovery discovery, none) ∈ log ∧ discovery.owner = some t.pid := by
  intro host c log
  obtain ⟨clock, h⟩ := Machine.exec_untimed (M := sampling host) (fun _ => rfl) (.new host 7 9) nestedRun
  have hload : c.load_sample 2900000000 = some 500 := by decide +kernel
  exact ⟨hload, by decide +kernel, load_of_discovered h hload⟩

end Vouched

end Symphony.Upstream
