import Mathlib.Logic.Relation
import Symphony.Lib.Runs
import Symphony.Server.Reconcile
/-!
# The status file and the hand-over

`writeStatus` decides, each time a server looks at `status.json`, whether it names another
server that started after this one by the wall clock. If so the file is left alone, and
`considerStandingDown` asks whether the other one has taken over: it is verified, started
later by its boot-relative ticks, and lists every endpoint of this one. Once this has been
so for the grace period, at every look, the server stops. Otherwise the server writes the
file, unless its owner has a listener that it has not.

The servers of a host share the process table and the file. A look at the file is one
step.
-/

namespace Symphony.Server

open Lib (Machine Since)
open Sni (decimal)

/-! ## Processes -/

/-- What there is to know of a process: `kill(pid, 0)`, its command line and working
directory, and its run state, where they can be read. The start time is fixed. -/
structure Process where
  startTicks : Nat
  exited : Bool := false
  signalable : Bool := true
  cmdline : Option (List Bytes × Bytes) := none
  stat : Option Char := none
  deriving DecidableEq, Repr

abbrev Processes := Nat → Option Process

/-- The platform: whether it is Linux, how a path is resolved, and how a date is read. -/
structure Platform where
  linux : Bool
  resolve : Bytes → Bytes → Bytes
  parse : Bytes → Option Int

inductive Identity where
  | verified
  | unverified
  | no
  deriving DecidableEq, Repr

structure ProcStat where
  state : Char
  startTicks : Nat
  deriving DecidableEq, Repr

def procStat (procs : Processes) (pid : Nat) : Option ProcStat := do
  let p ← procs pid
  if p.exited then none
  else
    let state ← p.stat
    return ⟨state, p.startTicks⟩

/-- `--config` or `-c`, and then the path. -/
def namesConfig (C : Platform) (cwd configPath : Bytes) : List Bytes → Bool
  | arg :: path :: argv =>
    ((arg = bytes "--config" || arg = bytes "-c") && C.resolve cwd path = configPath) ||
      namesConfig C cwd configPath (path :: argv)
  | _ => false

def servesConfig (C : Platform) (procs : Processes) (pid : Nat) (configPath : Bytes) : Identity :=
  match (procs pid).filter fun p => !p.exited && p.signalable with
  | none => .no
  | some p =>
    match p.cmdline with
    | none => if C.linux then .no else .unverified
    | some (argv, cwd) =>
      if ['T', 't', 'Z', 'X'].contains (((procStat procs pid).map (·.state)).getD 'X') then .no
      else if namesConfig C cwd configPath argv then .verified
      else .no

/-! ## One server -/

/-- What `readStatusOwner` reads of the file. -/
structure StatusOwner where
  pid : Nat
  startedAt : Bytes
  configPath : Option Bytes := none
  ports : Option (List Nat) := none
  listeners : Option (List Bytes) := none
  deriving DecidableEq, Repr

def startedAfter (C : Platform) (a b : StatusOwner) : Bool :=
  match C.parse a.startedAt, C.parse b.startedAt with
  | some aStart, some bStart => aStart > bStart || (aStart = bStart && a.pid > b.pid)
  | _, _ => false

structure Superseded where
  pid : Nat
  startedAt : Bytes
  since : Nat
  deriving DecidableEq, Repr

/-- A server process: what reloads leave, and what it remembers of its looks at the file.
`grace` is `SUPERSEDE_GRACE_MS`. -/
structure ServerProcess extends ServerState where
  configPath : Bytes
  startedAt : Bytes
  grace : Nat
  statusWriteFailed : Bool := false
  yieldedTo : Option Nat := none
  supersededBy : Option Superseded := none
  standDownBlocked : Option Bytes := none
  claimHeld : Option Bytes := none
  stopping : Bool := false

namespace ServerProcess

variable (s : ServerProcess)

def endpoints : List Bytes := s.active.entries.flatMap fun e => e.2.endpoints

def ports : List Nat := s.active.keys.flatMap keyPorts

/-- The status this server writes. -/
def status (pid : Nat) : StatusOwner := ⟨pid, s.startedAt, some s.configPath, some s.ports, some s.endpoints⟩

end ServerProcess

def joined (texts : List Bytes) : Bytes := (bytes ", ").intercalate texts

section Look

variable (C : Platform) (procs : Processes) (pid : Nat)

/-- Whether a process started later, by boot-relative ticks and then by pid. -/
def startedLater (owner : Nat) : Bool :=
  match procStat procs pid, procStat procs owner with
  | some own, some other =>
    other.startTicks > own.startTicks || (other.startTicks = own.startTicks && owner > pid)
  | _, _ => false

/-- Why the server does not stand down for the owner. -/
def blocked (owner : StatusOwner) (verified : Bool) (s : ServerProcess) : Option Bytes :=
  let missing := owner.listeners.elim [] fun listeners => s.endpoints.filter fun e => !listeners.contains e
  if !verified then some (bytes "its identity cannot be verified without /proc")
  else if !startedLater procs pid owner.pid then some (bytes "it did not start after this process")
  else if owner.configPath ≠ some s.configPath then some (bytes "its status names a different config")
  else if owner.listeners.isNone then some (bytes "its status does not list its listeners")
  else if missing ≠ [] then some (bytes "it is not listening on " ++ joined missing)
  else none

/-- The server after the look, and the pid it stands down for. -/
def considerStandingDown (now : Nat) (owner : StatusOwner) (verified : Bool) (s : ServerProcess) :
    ServerProcess × Option Nat :=
  match blocked procs pid owner verified s with
  | some reason => ({ s with standDownBlocked := some reason, supersededBy := none }, none)
  | none =>
    let s := { s with standDownBlocked := none }
    match s.supersededBy.filter fun by_ => by_.pid = owner.pid && by_.startedAt = owner.startedAt with
    | none => ({ s with supersededBy := some ⟨owner.pid, owner.startedAt, now⟩ }, none)
    | some by_ =>
      -- `onSuperseded` stops the server
      if by_.since + s.grace ≤ now then ({ s with stopping := true }, some owner.pid) else (s, none)

/-- The listeners of a live owner that this server has not. -/
def uncovered (peer : StatusOwner) (s : ServerProcess) : List Bytes :=
  match peer.listeners with
  | some listeners => listeners.filter fun e => !s.endpoints.contains e
  | none => ((peer.ports.getD []).filter fun p => !s.ports.contains p).map fun p => bytes "port " ++ decimal p

/-- Nothing newer owns the file: the server takes it, unless its live owner has a listener
that it has not. `writable` is whether the write succeeds. -/
def claim (writable : Bool) (peer : Option StatusOwner) (file : Option StatusOwner) (s : ServerProcess) :
    Option StatusOwner × ServerProcess :=
  let s := { s with yieldedTo := none, supersededBy := none, standDownBlocked := none }
  match peer.bind fun peer => if uncovered peer s = [] then none else some (peer.pid, uncovered peer s) with
  | some (owner, listeners) =>
    (file, { s with claimHeld := some (bytes "pid " ++ decimal owner ++ bytes " listens on " ++ joined listeners ++
      bytes ", which this process does not") })
  | none =>
    if writable then (some (s.status pid), { s with claimHeld := none, statusWriteFailed := false })
    else (file, { s with claimHeld := none, statusWriteFailed := true })

/-- The file as it names another live server of this config, with its identity. -/
def livePeer (file : Option StatusOwner) (s : ServerProcess) : Option (StatusOwner × Identity) := do
  let owner ← file
  if owner.pid = pid then none
  else
    let identity := if owner.configPath.all (· = s.configPath) then servesConfig C procs owner.pid s.configPath else .no
    if identity = .no then none else return (owner, identity)

/-- The file, the server, and the pid it stands down for. -/
def writeStatus (now : Nat) (writable : Bool) (file : Option StatusOwner) (s : ServerProcess) :
    Option StatusOwner × ServerProcess × Option Nat :=
  if s.stopping then (file, s, none)
  else
    match (livePeer C procs pid file s).filter fun peer => startedAfter C peer.1 (s.status pid) with
    | some (peer, identity) =>
      (file, considerStandingDown procs pid now peer (identity = .verified) { s with yieldedTo := some peer.pid })
    | none =>
      let r := claim pid writable ((livePeer C procs pid file s).map (·.1)) file s
      (r.1, r.2, none)

/-- The timer of `recheckStatus`. -/
def recheckStatus (now : Nat) (writable : Bool) (file : Option StatusOwner) (s : ServerProcess) :
    Option StatusOwner × ServerProcess × Option Nat :=
  if s.stopping then (file, s, none)
  else if !s.statusWriteFailed && file.any fun owner => owner.pid = pid then
    (file, { s with supersededBy := none }, none)
  else writeStatus C procs pid now writable file s

end Look

/-! ## The servers of a host -/

structure Host where
  procs : Processes := fun _ => none
  servers : Nat → Option ServerProcess := fun _ => none
  file : Option StatusOwner := none

inductive HostEvent where
  /-- A process starts: a server, or another one. -/
  | spawn (pid : Nat) (startTicks : Nat) (server : Option (Bytes × Bytes × Nat))
  /-- What can be seen of a process changes. -/
  | observe (pid : Nat) (signalable : Bool) (cmdline : Option (List Bytes × Bytes)) (stat : Option Char)
  | crash (pid : Nat)
  /-- A signal stops a server. -/
  | terminate (pid : Nat)
  /-- What a reload leaves. -/
  | reconcile (pid : Nat) (state : ServerState)
  /-- The look at the end of a reload. -/
  | check (pid : Nat) (now : Nat) (writable : Bool)
  /-- The look of the timer. -/
  | recheck (pid : Nat) (now : Nat) (writable : Bool)
  /-- Another program writes the file, or damages it. -/
  | write (file : Option StatusOwner)

variable {pid now : Nat} {file : Option StatusOwner} {s' : ServerProcess}

namespace Host

variable (h : Host)

def Live (pid : Nat) : Prop := ∃ p, h.procs pid = some p ∧ p.exited = false

/-- The server of a process that has not exited. -/
def server (pid : Nat) : Option ServerProcess :=
  ((h.procs pid).filter fun p => !p.exited).bind fun _ => h.servers pid

def setServer (pid : Nat) (s : ServerProcess) : Host := { h with servers := Function.update h.servers pid (some s) }

def modifyProc (pid : Nat) (f : Process → Process) : Host :=
  { h with procs := Function.update h.procs pid ((h.procs pid).map f) }

/-- A look of a server, with its answer. -/
def look (pid : Nat) (r : Option StatusOwner × ServerProcess × Option Nat) : Option Nat × Host :=
  (r.2.2, { h.setServer pid r.2.1 with file := r.1 })

end Host

/-- The servers of a host; a step answers with the pid that its server stands down for. -/
def hosting (C : Platform) : Machine Host HostEvent (Option Nat) where
  reading
    | .check _ now _ => some now
    | .recheck _ now _ => some now
    | _ => none
  step h
    | .spawn pid startTicks server =>
      -- a pid is never used again
      if (h.procs pid).isSome then (none, h)
      else (none, { h with
        procs := Function.update h.procs pid (some { startTicks })
        servers := Function.update h.servers pid
          (server.map fun s => { configPath := s.1, startedAt := s.2.1, grace := s.2.2 }) })
    | .observe pid signalable cmdline stat => (none, h.modifyProc pid fun p => { p with signalable, cmdline, stat })
    | .crash pid => (none, h.modifyProc pid fun p => { p with exited := true })
    | .terminate pid => (none, (h.server pid).elim h fun s => h.setServer pid { s with stopping := true })
    | .reconcile pid state => (none, (h.server pid).elim h fun s => h.setServer pid { s with toServerState := state })
    | .check pid now writable =>
      (h.server pid).elim (none, h) fun s => h.look pid (writeStatus C h.procs pid now writable h.file s)
    | .recheck pid now writable =>
      (h.server pid).elim (none, h) fun s => h.look pid (recheckStatus C h.procs pid now writable h.file s)
    | .write file => (none, { h with file })

/-! ## What a look decides -/

namespace Host

variable {h : Host}

theorem server_eq_some {s : ServerProcess} : h.server pid = some s ↔ h.Live pid ∧
    h.servers pid = some s := by
  unfold server Live
  rw [Option.bind_eq_some_iff]
  constructor
  · rintro ⟨p, hp, hs⟩
    rw [Option.filter_eq_some_iff] at hp
    exact ⟨⟨p, hp.1, by simpa using hp.2⟩, hs⟩
  · rintro ⟨⟨p, hp, hexited⟩, hs⟩
    exact ⟨p, Option.filter_eq_some_iff.2 ⟨hp, by simp [hexited]⟩, hs⟩

/-- `Q` started after `P`, by boot-relative ticks and then by pid. -/
def Later (h : Host) (P Q : Nat) : Prop :=
  ∃ p q, h.procs P = some p ∧ h.procs Q = some q ∧
    (p.startTicks < q.startTicks ∨ p.startTicks = q.startTicks ∧ P < Q)

theorem Later.trans {P Q R : Nat} (h₁ : h.Later P Q) (h₂ : h.Later Q R) : h.Later P R := by
  obtain ⟨p, q, hp, hq, hpq⟩ := h₁
  obtain ⟨q', r, hq', hr, hqr⟩ := h₂
  rw [hq] at hq'
  cases hq'
  exact ⟨p, r, hp, hr, by omega⟩

theorem Later.irrefl {P : Nat} : ¬h.Later P P := by
  rintro ⟨p, q, hp, hq, hlt⟩
  rw [hp] at hq
  cases hq
  omega

end Host

/-- `Q` has taken over from `P`: it is another live and verified process of the config, it
started later, and the file names it and lists every endpoint that `P` has bound. -/
structure Succeeds (C : Platform) (h : Host) (P Q : Nat) : Prop where
  other : Q ≠ P
  live : h.Live Q
  later : h.Later P Q
  covers : ∃ s owner listeners, h.server P = some s ∧ servesConfig C h.procs Q s.configPath = .verified ∧
    h.file = some owner ∧ owner.pid = Q ∧ owner.listeners = some listeners ∧ ∀ e ∈ s.endpoints, e ∈ listeners

section Look

variable {C : Platform} {h : Host} {P : Nat} {s : ServerProcess} {owner : StatusOwner}

variable {procs : Processes}

theorem live_of_verified {Q : Nat} {configPath : Bytes} (hv : servesConfig C procs Q configPath = .verified) :
    ∃ p, procs Q = some p ∧ p.exited = false := by
  unfold servesConfig at hv
  split at hv
  · cases hv
  · next p hp =>
    rw [Option.filter_eq_some_iff] at hp
    simp only [Bool.and_eq_true, Bool.not_eq_true'] at hp
    exact ⟨p, hp.1, hp.2.1⟩

theorem procStat_some {stat : ProcStat} (hs : procStat procs pid = some stat) :
    ∃ p, procs pid = some p ∧ p.startTicks = stat.startTicks := by
  obtain ⟨p, hp, hs⟩ := Option.bind_eq_some_iff.1 hs
  split at hs
  · cases hs
  · obtain ⟨state, -, hs⟩ := Option.bind_eq_some_iff.1 hs
    cases hs
    exact ⟨p, hp, rfl⟩

theorem later_of_startedLater {Q : Nat} (hl : startedLater h.procs P Q = true) : h.Later P Q := by
  unfold startedLater at hl
  split at hl
  · next own other hown hother =>
    obtain ⟨p, hp, hpt⟩ := procStat_some hown
    obtain ⟨q, hq, hqt⟩ := procStat_some hother
    refine ⟨p, q, hp, hq, ?_⟩
    simp only [Bool.or_eq_true, Bool.and_eq_true, decide_eq_true_eq] at hl
    omega
  · cases hl

theorem blocked_eq_none {verified : Bool} (hb : blocked procs P owner verified s = none) :
    verified = true ∧ startedLater procs P owner.pid = true ∧
      ∃ listeners, owner.listeners = some listeners ∧ ∀ e ∈ s.endpoints, e ∈ listeners := by
  unfold blocked at hb
  dsimp only at hb
  split at hb
  · cases hb
  · next hverified =>
    split at hb
    · cases hb
    · next hlater =>
      split at hb
      · cases hb
      · split at hb
        · cases hb
        · next hlisteners =>
          split at hb
          · cases hb
          · next hmissing =>
            cases hl : owner.listeners with
            | none => simp [hl] at hlisteners
            | some listeners =>
              refine ⟨by simpa using hverified, by simpa using hlater, listeners, rfl, fun e he => ?_⟩
              rw [hl] at hmissing
              simpa using (List.filter_eq_nil_iff.1 (not_not.1 hmissing)) e he

/-- What a look leaves of the succession: none, a new one, or the one before; and then the
owner has taken over. -/
inductive Looked (C : Platform) (h : Host) (P now : Nat) (s s' : ServerProcess) : Option Nat → Prop
  | reset : s'.supersededBy = none → Looked C h P now s s' none
  | begun {Q startedAt} : Succeeds C h P Q → s'.supersededBy = some ⟨Q, startedAt, now⟩ → Looked C h P now s s' none
  | waiting {by_} : Succeeds C h P by_.pid → s.supersededBy = some by_ → s'.supersededBy = some by_ →
      Looked C h P now s s' none
  | elapsed {by_} : Succeeds C h P by_.pid → s.supersededBy = some by_ → s'.supersededBy = some by_ →
    s'.stopping = true →
      by_.since + s.grace ≤ now → Looked C h P now s s' (some by_.pid)

theorem considerStandingDown_looked {verified : Bool} {yieldedTo : Option Nat}
    (hsucceeds : blocked h.procs P owner verified { s with yieldedTo } = none → Succeeds C h P owner.pid) :
    Looked C h P now s (considerStandingDown h.procs P now owner verified { s with yieldedTo }).1
      (considerStandingDown h.procs P now owner verified { s with yieldedTo }).2 := by
  unfold considerStandingDown
  cases hb : blocked h.procs P owner verified { s with yieldedTo } with
  | some reason => exact .reset rfl
  | none =>
    have hsucceeds := hsucceeds hb
    dsimp only
    split
    · exact .begun hsucceeds rfl
    · next by_ hby =>
      obtain ⟨hby, hsame⟩ := Option.filter_eq_some_iff.1 hby
      simp only [Bool.and_eq_true, decide_eq_true_eq] at hsame
      rw [← hsame.1] at hsucceeds ⊢
      split
      · next hover => exact .elapsed hsucceeds hby hby rfl hover
      · exact .waiting hsucceeds hby hby

theorem claim_reset (pid : Nat) (writable : Bool) (peer file : Option StatusOwner) (s : ServerProcess) :
    (claim pid writable peer file s).2.supersededBy = none := by
  unfold claim
  dsimp only
  split
  · rfl
  · split <;> rfl

/-- The peer of a server is the owner that the file names, another process of its config. -/
theorem livePeer_some {identity : Identity} (hp : livePeer C procs P file s = some (owner, identity)) :
    file = some owner ∧ owner.pid ≠ P ∧
      (identity = .verified → servesConfig C procs owner.pid s.configPath = .verified) := by
  obtain ⟨o, ho, hp⟩ := Option.bind_eq_some_iff.1 hp
  by_cases hne : o.pid = P
  · rw [if_pos hne] at hp
    cases hp
  rw [if_neg hne] at hp
  obtain ⟨hne', hp⟩ := Option.ite_none_left_eq_some.1 hp
  cases hp
  refine ⟨ho, hne, fun hv => ?_⟩
  split at hv
  · exact hv
  · cases hv

theorem writeStatus_looked (hs : h.server P = some s) (hstop : s.stopping = false) (now : Nat) (writable : Bool) :
    Looked C h P now s (writeStatus C h.procs P now writable h.file s).2.1
      (writeStatus C h.procs P now writable h.file s).2.2 := by
  unfold writeStatus
  rw [if_neg (by rw [hstop]; exact Bool.false_ne_true)]
  split
  · next peer identity hpeer =>
    obtain ⟨hpeer, -⟩ := Option.filter_eq_some_iff.1 hpeer
    obtain ⟨hfile, hne, hidentity⟩ := livePeer_some hpeer
    refine considerStandingDown_looked (s := s) fun hb => ?_
    obtain ⟨hverified, hlater, listeners, hlisteners, hcovers⟩ := blocked_eq_none hb
    have hverified := hidentity (by simpa using hverified)
    obtain ⟨q, hq, hlive⟩ := live_of_verified hverified
    exact ⟨hne, ⟨q, hq, hlive⟩, later_of_startedLater hlater, s, peer, listeners, hs, hverified, hfile, rfl, hlisteners,
      hcovers⟩
  · exact .reset (claim_reset P writable _ h.file s)

theorem recheckStatus_looked (hs : h.server P = some s) (hstop : s.stopping = false) (now : Nat) (writable : Bool) :
    Looked C h P now s (recheckStatus C h.procs P now writable h.file s).2.1
      (recheckStatus C h.procs P now writable h.file s).2.2 := by
  have hwrite := writeStatus_looked (C := C) hs hstop now writable
  unfold recheckStatus
  rw [if_neg (by rw [hstop]; exact Bool.false_ne_true)]
  split
  · exact .reset rfl
  · exact hwrite

end Look

/-! ## Runs -/

/-- The server that looks at the file, and when. -/
def HostEvent.looks : HostEvent → Option (Nat × Nat)
  | .check pid now _ => some (pid, now)
  | .recheck pid now _ => some (pid, now)
  | _ => none

section Runs

variable {C : Platform} {h : Host} {e : HostEvent} {P Q : Nat}

theorem step_procs {p : Process} (hp : h.procs P = some p) :
    ∃ p', ((hosting C).step h e).2.procs P = some p' ∧ p'.startTicks = p.startTicks := by
  have modified (pid : Nat) (f : Process → Process) (hf : ∀ p, (f p).startTicks = p.startTicks) :
      ∃ p', (h.modifyProc pid f).procs P = some p' ∧ p'.startTicks = p.startTicks := by
    unfold Host.modifyProc
    dsimp only
    by_cases hpid : P = pid
    · subst hpid
      rw [Function.update_self, hp]
      exact ⟨f p, rfl, hf p⟩
    · rw [Function.update_of_ne hpid]
      exact ⟨p, hp, rfl⟩
  have kept (pid : Nat) (f : ServerProcess → ServerProcess) :
      ∃ p', ((h.server pid).elim h fun s => h.setServer pid (f s)).procs P = some p' ∧ p'.startTicks =
        p.startTicks := by
    cases h.server pid <;> exact ⟨p, hp, rfl⟩
  have looked (pid : Nat) (f : ServerProcess → Option StatusOwner × ServerProcess × Option Nat) :
      ∃ p', ((h.server pid).elim (none, h) fun s => h.look pid (f s)).2.procs P = some p' ∧
        p'.startTicks = p.startTicks := by
    cases h.server pid <;> exact ⟨p, hp, rfl⟩
  cases e with
  | spawn pid startTicks server =>
    simp only [hosting]
    split
    · exact ⟨p, hp, rfl⟩
    · next hfree =>
      have hpid : P ≠ pid := by
        rintro rfl
        simp [hp] at hfree
      exact ⟨p, by dsimp only; rw [Function.update_of_ne hpid, hp], rfl⟩
  | observe pid signalable cmdline stat => exact modified pid _ fun _ => rfl
  | crash pid => exact modified pid _ fun _ => rfl
  | terminate pid => exact kept pid _
  | reconcile pid state => exact kept pid _
  | check pid now writable => exact looked pid _
  | recheck pid now writable => exact looked pid _
  | write file => exact ⟨p, hp, rfl⟩

theorem Host.Later.step (hl : h.Later P Q) : ((hosting C).step h e).2.Later P Q := by
  obtain ⟨p, q, hp, hq, hlt⟩ := hl
  obtain ⟨p', hp', hpt⟩ := step_procs (C := C) (e := e) hp
  obtain ⟨q', hq', hqt⟩ := step_procs (C := C) (e := e) hq
  exact ⟨p', q', hp', hq', by omega⟩

/-- What a step has done to a server that runs after it. -/
inductive ServerStep (C : Platform) (h : Host) (e : HostEvent) (P : Nat) (s' : ServerProcess) : Prop
  | started : s'.supersededBy = none → ServerStep C h e P s'
  | kept {s} : h.server P = some s → s.stopping = false → s'.supersededBy = s.supersededBy →
      (∀ now, e.looks ≠ some (P, now)) → ServerStep C h e P s'
  | looked {s now} : h.server P = some s → s.stopping = false → e.looks = some (P, now) →
      Looked C h P now s s' ((hosting C).step h e).1 → ServerStep C h e P s'

theorem Host.modifyProc_server {f : Process → Process} (hf : ∀ p, (f p).exited = false → p.exited = false)
    (hs : (h.modifyProc pid f).server P = some s') :
    h.server P = some s' := by
  obtain ⟨⟨p', hp', hlive⟩, hs⟩ := server_eq_some.1 hs
  refine server_eq_some.2 ⟨?_, hs⟩
  simp only [modifyProc] at hp'
  by_cases hpid : P = pid
  · subst hpid
    rw [Function.update_self, Option.map_eq_some_iff] at hp'
    obtain ⟨p, hp, rfl⟩ := hp'
    exact ⟨p, hp, hf p hlive⟩
  · rw [Function.update_of_ne hpid] at hp'
    exact ⟨p', hp', hlive⟩

theorem Host.setServer_server {s : ServerProcess} (hs : (h.setServer pid s).server P = some s') :
    (P = pid ∧ s' = s) ∨ (P ≠ pid ∧ h.server P = some s') := by
  obtain ⟨hlive, hs⟩ := server_eq_some.1 hs
  by_cases hpid : P = pid
  · subst hpid
    refine .inl ⟨rfl, ?_⟩
    simpa [setServer, eq_comm] using hs
  · refine .inr ⟨hpid, server_eq_some.2 ⟨hlive, ?_⟩⟩
    simpa [setServer, Function.update_of_ne hpid] using hs

/-- What an event does that is a look: to a server that runs, as its `Looked` says. -/
theorem looks_step (hlooks : e.looks = some (P, now)) :
    ∃ f : ServerProcess → Option StatusOwner × ServerProcess × Option Nat,
      (hosting C).step h e = (h.server P).elim (none, h) (fun s => h.look P (f s)) ∧
      ∀ s, h.server P = some s → (s.stopping = true ∧ f s = (h.file, s, none)) ∨
        (s.stopping = false ∧ Looked C h P now s (f s).2.1 (f s).2.2) := by
  cases e with
  | check pid now writable =>
    cases hlooks
    refine ⟨_, rfl, fun s hs => ?_⟩
    cases hstop : s.stopping with
    | true => exact .inl ⟨rfl, by simp [writeStatus, hstop]⟩
    | false => exact .inr ⟨rfl, writeStatus_looked hs hstop now writable⟩
  | recheck pid now writable =>
    cases hlooks
    refine ⟨_, rfl, fun s hs => ?_⟩
    cases hstop : s.stopping with
    | true => exact .inl ⟨rfl, by simp [recheckStatus, hstop]⟩
    | false => exact .inr ⟨rfl, recheckStatus_looked hs hstop now writable⟩
  | _ => cases hlooks

/-- A server stands down at a look only, and only a running one. -/
theorem stands_down_looked (hlooks : e.looks = some (P, now)) (ha : ((hosting C).step h e).1 = some Q) :
    ∃ s s', h.server P = some s ∧ s.stopping = false ∧ Looked C h P now s s' (some Q) := by
  obtain ⟨f, hstep, hf⟩ := looks_step (C := C) (h := h) hlooks
  rw [hstep] at ha
  cases hserver : h.server P with
  | none =>
    rw [hserver] at ha
    cases ha
  | some s =>
    rw [hserver] at ha
    have ha : (f s).2.2 = some Q := ha
    rcases hf s hserver with ⟨-, hfs⟩ | ⟨hrunning, hlooked⟩
    · rw [hfs] at ha
      cases ha
    · exact ⟨s, (f s).2.1, rfl, hrunning, ha ▸ hlooked⟩

theorem serverStep (hs' : ((hosting C).step h e).2.server P = some s') (hstop : s'.stopping = false) :
    ServerStep C h e P s' := by
  have same (hs : h.server P = some s') (hlooks : ∀ now, e.looks ≠ some (P, now)) : ServerStep C h e P s' :=
    .kept hs hstop rfl hlooks
  -- a step that writes one server and is not a look
  have set (pid : Nat) (f : ServerProcess → ServerProcess)
      (hf : ∀ s, (f s).supersededBy = s.supersededBy ∧ ((f s).stopping = false → s.stopping = false))
      (hlooks : ∀ now, e.looks ≠ some (P, now))
      (hs : ((h.server pid).elim h fun s => h.setServer pid (f s)).server P = some s') : ServerStep C h e P s' := by
    cases hserver : h.server pid with
    | none =>
      rw [hserver] at hs
      exact same hs hlooks
    | some s =>
      rw [hserver] at hs
      rcases Host.setServer_server hs with ⟨rfl, rfl⟩ | ⟨-, hs⟩
      · exact .kept hserver ((hf s).2 hstop) (hf s).1 hlooks
      · exact same hs hlooks
  have look (pid now : Nat) (hlooks : e.looks = some (pid, now)) : ServerStep C h e P s' := by
    obtain ⟨f, hstep, hf⟩ := looks_step (C := C) (h := h) hlooks
    have others (hne : P ≠ pid) : ∀ now, e.looks ≠ some (P, now) := by
      intro now' hnow'
      rw [hlooks] at hnow'
      cases hnow'
      exact hne rfl
    rw [hstep] at hs'
    cases hserver : h.server pid with
    | none =>
      rw [hserver] at hs'
      have hs : h.server P = some s' := hs'
      refine same hs (others ?_)
      rintro rfl
      rw [hserver] at hs
      cases hs
    | some s =>
      rw [hserver] at hs' hstep
      rcases Host.setServer_server (h := h) hs' with ⟨rfl, rfl⟩ | ⟨hne, hs⟩
      · rcases hf s hserver with ⟨hstopped, hfs⟩ | ⟨hrunning, hlooked⟩
        · rw [hfs] at hstop
          exact absurd hstop (by simp [hstopped])
        · refine .looked hserver hrunning hlooks ?_
          rw [hstep]
          exact hlooked
      · exact same hs (others hne)
  cases e with
  | spawn pid startTicks server =>
    simp only [hosting] at hs'
    split at hs'
    · exact same hs' nofun
    · obtain ⟨⟨p, hp, hlive⟩, hs⟩ := Host.server_eq_some.1 hs'
      dsimp only at hp hs
      by_cases hpid : P = pid
      · subst hpid
        rw [Function.update_self, Option.map_eq_some_iff] at hs
        obtain ⟨_, -, rfl⟩ := hs
        exact .started rfl
      · rw [Function.update_of_ne hpid] at hp hs
        exact same (Host.server_eq_some.2 ⟨⟨p, hp, hlive⟩, hs⟩) nofun
  | observe pid signalable cmdline stat =>
    have hs : (h.modifyProc pid fun p => { p with signalable, cmdline, stat }).server P = some s' := hs'
    refine same (Host.modifyProc_server ?_ hs) nofun
    exact fun _ hp => hp
  | crash pid =>
    have hs : (h.modifyProc pid fun p => { p with exited := true }).server P = some s' := hs'
    exact same (Host.modifyProc_server (fun _ hp => by cases hp) hs) nofun
  | terminate pid =>
    exact set pid (fun s => { s with stopping := true }) (fun s => ⟨rfl, fun hs => by cases hs⟩) nofun hs'
  | reconcile pid state => exact set pid (fun s => { s with toServerState := state }) (fun s => ⟨rfl, id⟩) nofun hs'
  | check pid now writable => exact look pid now rfl
  | recheck pid now writable => exact look pid now rfl
  | write file => exact same hs' nofun

/-! ## The hand-over -/

/-- The looks of `P` at the time `t`. -/
def LooksAt (P t : Nat) (_ : List (HostEvent × Option Nat)) (x : HostEvent × Option Nat) : Prop :=
  x.1.looks = some (P, t)

/-- If the entry is a look of `P`, `Q` has taken over from it then. -/
def InOrder (C : Platform) (init : Host) (P Q : Nat) (past : List (HostEvent × Option Nat))
    (x : HostEvent × Option Nat) : Prop :=
  ∀ now, x.1.looks = some (P, now) → Succeeds C ((hosting C).stateAfter init past) P Q

/-- A running server has been in order since the look that began its succession. -/
def HandingOver (C : Platform) (init h : Host) (log : List (HostEvent × Option Nat)) : Prop :=
  ∀ P s by_, h.server P = some s → s.stopping = false → s.supersededBy = some by_ →
    Since (LooksAt P by_.since) (InOrder C init P by_.pid) log

variable {init : Host} {clock : Nat} {log : List (HostEvent × Option Nat)}

theorem handing_over (hrun : (hosting C).Run { file } h clock log) :
    HandingOver C { file } h log := by
  -- the runs themselves are carried along, for the states before each entry
  suffices hinv : (hosting C).stateAfter { file } log = h ∧ HandingOver C { file } h log from hinv.2
  refine hrun.inv (fun h _ log => (hosting C).stateAfter { file } log = h ∧ HandingOver C { file } h log) ⟨rfl, ?_⟩ ?_
  · intro P s by_ hs
    cases hs
  · rintro h clock log e ⟨rfl, ih⟩ -
    refine ⟨Machine.stateAfter_concat .., ?_⟩
    intro P s' by_ hs' hstop hby
    cases serverStep hs' hstop with
    | started hnone =>
      rw [hby] at hnone
      cases hnone
    | kept hs hrunning hsame hlooks =>
      exact (ih P _ by_ hs hrunning (hsame ▸ hby)).keep fun now hnow => absurd hnow (hlooks now)
    | looked hs hrunning hlooks hlooked =>
      generalize hanswer : ((hosting C).step _ e).1 = answer at hlooked ⊢
      cases hlooked with
      | reset hnone =>
        rw [hby] at hnone
        cases hnone
      | begun hsucceeds hbegun =>
        rw [hby] at hbegun
        cases hbegun
        exact .start hlooks fun _ _ => hsucceeds
      | waiting hsucceeds hbefore hafter =>
        rw [hby] at hafter
        cases hafter
        exact (ih P _ by_ hs hrunning hbefore).keep fun _ _ => hsucceeds
      | elapsed _ _ _ hstopped =>
        rw [hstop] at hstopped
        cases hstopped

theorem later_after {past rest : List (HostEvent × Option Nat)} (hl : ((hosting C).stateAfter init past).Later P Q) :
    ((hosting C).stateAfter init (past ++ rest)).Later P Q := by
  induction rest using List.reverseRecOn with
  | nil => rwa [List.append_nil]
  | append_singleton rest x ih =>
    rw [← List.append_assoc, Machine.stateAfter_concat]
    exact ih.step

/-- In the log, `P` stands down for `Q`. -/
def StandsDownFor (log : List (HostEvent × Option Nat)) (P Q : Nat) : Prop :=
  ∃ e now, (e, some Q) ∈ log ∧ e.looks = some (P, now)

/-- No live process that is verified for the config of `P` started after `P`. -/
def LastStarted (C : Platform) (h : Host) (P : Nat) : Prop :=
  ∀ s Q, h.server P = some s → h.Live Q → servesConfig C h.procs Q s.configPath = .verified → ¬h.Later P Q

/-- What is safe about the hand-overs of a log. -/
structure SafeHandOver (C : Platform) (init : Host) (log : List (HostEvent × Option Nat)) : Prop where
  /-- Whoever stands down has been taken over from, and was so at each of its looks for the
  grace period. -/
  taken_over : ∀ past e Q rest, log = past ++ (e, some Q) :: rest → ∃ P now s,
    e.looks = some (P, now) ∧ ((hosting C).stateAfter init past).server P = some s ∧
      Succeeds C ((hosting C).stateAfter init past) P Q ∧
      ∃ t, t + s.grace ≤ now ∧ Since (LooksAt P t) (InOrder C init P Q) past
  acyclic : ∀ P, ¬Relation.TransGen (StandsDownFor log) P P
  last_stays : ∀ past e w P now rest, log = past ++ (e, w) :: rest → e.looks = some (P, now) →
    LastStarted C ((hosting C).stateAfter init past) P → w = none

theorem answer_none_of_looks_none (hlooks : e.looks = none) : ((hosting C).step h e).1 = none := by
  cases e with
  | spawn pid startTicks server =>
    simp only [hosting]
    split <;> rfl
  | check pid now writable => cases hlooks
  | recheck pid now writable => cases hlooks
  | _ => rfl

theorem taken_over_of_run (hrun : (hosting C).Run { file } h clock log) {past rest : List (HostEvent × Option Nat)}
    (hlog : log = past ++ (e, some Q) :: rest) :
    ∃ P now s, e.looks = some (P, now) ∧ ((hosting C).stateAfter { file } past).server P = some s ∧
      Succeeds C ((hosting C).stateAfter { file } past) P Q ∧
      ∃ t, t + s.grace ≤ now ∧ Since (LooksAt P t) (InOrder C { file } P Q) past := by
  obtain ⟨h', clock', hrun', -, hanswer⟩ := hrun.answered hlog
  rw [hrun'.stateAfter]
  cases hlooks : e.looks with
  | none =>
    rw [answer_none_of_looks_none hlooks] at hanswer
    cases hanswer
  | some look =>
    obtain ⟨P, now⟩ := look
    obtain ⟨s, s', hs, hrunning, hlooked⟩ := stands_down_looked hlooks hanswer.symm
    generalize hsome : some Q = answer at hlooked
    cases hlooked with
    | elapsed hsucceeds hbefore _ _ hgrace =>
      cases hsome
      exact ⟨P, now, s, rfl, hs, hsucceeds, _, hgrace, handing_over hrun' P s _ hs hrunning hbefore⟩
    | _ => cases hsome

/-- In every run of any number of servers, whoever stands down has a live successor that
started later and serves all its endpoints. -/
theorem hand_over_never_retires_last {file : Option StatusOwner} (hrun : (hosting C).Run { file } h clock log) :
    SafeHandOver C { file } log := by
  refine ⟨fun past e Q rest hlog => taken_over_of_run hrun hlog, fun P hcycle => ?_, ?_⟩
  · -- start times do not change, so each edge still goes to a later process at the end
    have hedge : ∀ P Q, StandsDownFor log P Q → h.Later P Q := by
      rintro P Q ⟨e, now, he, hlooks⟩
      obtain ⟨past, rest, hlog⟩ := List.append_of_mem he
      obtain ⟨P', now', s, hlooks', -, hsucceeds, -⟩ := taken_over_of_run hrun hlog
      rw [hlooks] at hlooks'
      cases hlooks'
      rw [← hrun.stateAfter, hlog]
      exact later_after hsucceeds.later
    have hlater : ∀ Q, Relation.TransGen (StandsDownFor log) P Q → h.Later P Q := by
      intro Q hpath
      induction hpath with
      | single hpq => exact hedge _ _ hpq
      | tail _ hqr ih => exact ih.trans (hedge _ _ hqr)
    exact Host.Later.irrefl (hlater P hcycle)
  · intro past e w P now rest hlog hlooks hlast
    cases w with
    | none => rfl
    | some Q =>
      obtain ⟨P', now', s, hlooks', hs, hsucceeds, -⟩ := taken_over_of_run hrun hlog
      rw [hlooks] at hlooks'
      cases hlooks'
      obtain ⟨s', owner, listeners, hs', hverified, -⟩ := hsucceeds.covers
      exact absurd hsucceeds.later (hlast s' Q hs' hsucceeds.live hverified)

end Runs

/-- A Linux host whose paths are absolute and whose dates are their lengths. -/
def plainPlatform : Platform where
  linux := true
  resolve _ path := path
  parse date := some date.length

/-- Two servers of one config; the second starts, takes the file, and covers the first. -/
def handedOver : List HostEvent :=
  let path := bytes "/etc/symphony.json"
  let cmdline := some ([bytes "symphony-server", bytes "--config", path], bytes "/")
  let state : ServerState :=
    { active := (∅ : Active).insert (bytes "443") ⟨0, ⟨[], {}⟩, [bytes "0.0.0.0:443"]⟩ }
  [.spawn 10 5 (some (path, bytes "1", 2000)), .observe 10 true cmdline (some 'S'), .reconcile 10 state, .check 10 0 true,
    .spawn 7 6 (some (path, bytes "22", 2000)), .observe 7 true cmdline (some 'S'), .reconcile 7 state, .check 7 10 true,
    .recheck 10 20 true, .recheck 10 1000 true, .recheck 10 2020 true]

theorem hand_over_never_retires_last_handedOver :
    (((hosting plainPlatform).exec { } handedOver).1.map (·.2)).getLast? = some (some 7) ∧
      SafeHandOver plainPlatform { } ((hosting plainPlatform).exec { } handedOver).1 := by
  have h₀ : (hosting plainPlatform).RunWhere (fun _ _ => True) { } { } 0 [] := .nil
  have hok : (hosting plainPlatform).Admissible (fun _ _ => True) { } 0 handedOver := by decide +kernel
  obtain ⟨clock, hrun⟩ := h₀.exec hok
  exact ⟨by decide +kernel, hand_over_never_retires_last hrun.run⟩

end Symphony.Server
