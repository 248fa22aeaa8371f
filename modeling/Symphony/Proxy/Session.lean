import Symphony.Failover.Forward
import Symphony.Lib.Runs
/-!
# A proxied session

`forward`: bytes are copied both ways between a client and an upstream, under a watch for
clients that keep their half open and under the idle timeout. The copy is what it does to
its streams: which of their reads and shutdowns are polled, in which order and with what
results is open, and so is when the task is polled; writes pass the watch unseen. `now` is
`now_ns()`, and tokio's timers run on the same clock.
-/

namespace Symphony.Proxy

open Lib (Machine)

/-! ## The watch -/

inductive IoErrorKind where
  | TimedOut
  | Other
  deriving DecidableEq, Repr

/-- The result of polling a stream. Of a read, how much it added to the buffer. -/
inductive Poll (α : Type) where
  | Pending
  | Ready (result : Except IoErrorKind α)

structure HalfCloseWatch where
  armed : Bool
  last_activity_ns : Nat
  /-- The permit stored in `notify`. -/
  notified : Bool
  deriving DecidableEq, Repr

/-- Where the future of `expired` is. -/
inductive Expired where
  | notified
  | sleep (deadline : Nat)
  deriving DecidableEq, Repr

namespace HalfCloseWatch

def new : HalfCloseWatch := ⟨false, 0, false⟩

def arm (w : HalfCloseWatch) (now : Nat) : HalfCloseWatch :=
  if !w.armed then ⟨true, now, true⟩ else { w with last_activity_ns := now }

def record_activity (w : HalfCloseWatch) (now : Nat) : HalfCloseWatch :=
  if w.armed then { w with last_activity_ns := now } else w

/-- Once around the loop of `expired`: how long to sleep, or `none` to return. -/
def quiet (w : HalfCloseWatch) (window now : Nat) : Option Expired :=
  let quiet_for := now - w.last_activity_ns
  if quiet_for < window then some (.sleep (now + (window - quiet_for))) else none

/-- A poll of `expired`: `none` if it is ready. -/
def poll_expired (w : HalfCloseWatch) (window now : Nat) : Expired → HalfCloseWatch × Option Expired
  | .notified => if w.notified then ({ w with notified := false }, w.quiet window now) else (w, some .notified)
  | .sleep deadline => (w, if now < deadline then some (.sleep deadline) else w.quiet window now)

end HalfCloseWatch

/-- Which half a stream is; shutting down the one to the client arms the watch. -/
inductive Side where
  | client
  | upstream
  deriving DecidableEq, Repr

namespace Watched

def arms_on_shutdown (side : Side) : Bool := side = .client

def poll_read (w : HalfCloseWatch) (now : Nat) : Poll Nat → HalfCloseWatch
  | .Ready (.ok read) => if read > 0 then w.record_activity now else w
  | _ => w

def poll_shutdown (side : Side) (w : HalfCloseWatch) (now : Nat) : Poll Unit → HalfCloseWatch
  | .Ready (.ok _) => if arms_on_shutdown side then w.arm now else w
  | _ => w

end Watched

/-! ## The session -/

def classify_copy_failure : IoErrorKind → Failover.ErrorKind
  | .TimedOut => .PeerTimeout
  | .Other => .Stream

/-- The timeouts of `forward`, and when the idle timeout was set. -/
structure Timeouts where
  half_close_timeout : Nat
  idle_timeout : Nat
  began : Nat
  deriving Repr

structure Session where
  watch : HalfCloseWatch
  expired : Expired
  /-- The result of `forward`. -/
  ended : Option (Except Failover.ErrorKind Unit)

namespace Session

def new : Session := ⟨.new, .notified, none⟩

inductive Event where
  | read (side : Side) (now : Nat) (result : Poll Nat)
  | shutdown (side : Side) (now : Nat) (result : Poll Unit)
  /-- The copy is done. -/
  | copied (result : Except IoErrorKind Unit)
  /-- The branch of the watch is polled. -/
  | watch (now : Nat)
  /-- The idle timeout is polled. -/
  | delay (now : Nat)

def Event.reading : Event → Option Nat
  | .read _ now _ | .shutdown _ now _ | .watch now | .delay now => some now
  | .copied _ => none

def step (timeouts : Timeouts) (s : Session) : Event → Session
  | .read _ now result => { s with watch := Watched.poll_read s.watch now result }
  | .shutdown side now result => { s with watch := Watched.poll_shutdown side s.watch now result }
  | .copied result => { s with ended := some (result.mapError classify_copy_failure) }
  | .watch now =>
    if timeouts.half_close_timeout = 0 then s
    else
      match s.watch.poll_expired timeouts.half_close_timeout now s.expired with
      | (watch, some expired) => { s with watch, expired }
      | (watch, none) => { s with watch, ended := some (.error .HalfClosed) }
  | .delay now =>
    if timeouts.idle_timeout = 0 ∨ now < timeouts.began + timeouts.idle_timeout then s
    else { s with ended := some (.error .IdleTimeout) }

end Session

def forward (timeouts : Timeouts) : Machine Session Session.Event Unit where
  step s e := ((), s.step timeouts e)
  reading := Session.Event.reading

namespace Session

/-! ## What the watch is for -/

abbrev Log := List (Event × Unit)

/-- The task is not polled again once it is done. -/
def Running (s : Session) (_ : Event) : Prop := s.ended = none

/-- The write half to the client is shut down. -/
def Event.shuts : Event → Bool
  | .shutdown .client _ (.Ready (.ok _)) => true
  | _ => false

/-- When bytes came from either side, or the half to the client was shut down. -/
def Event.activity : Event → Option Nat
  | .read _ now (.Ready (.ok n)) => if n > 0 then some now else none
  | .shutdown .client now (.Ready (.ok _)) => some now
  | _ => none

def ShutDown (log : Log) : Bool := log.any (·.1.shuts)

/-- At `now` a whole window has passed since the shutdown and everything that came after
it. -/
def Quiet (window now : Nat) (log : Log) : Prop :=
  ∀ past x, past ++ [x] <+: log → ShutDown (past ++ [x]) → ∀ t, x.1.activity = some t → t + window ≤ now

/-- The last event, and why it ends the session. -/
inductive EndedBy (timeouts : Timeouts) : Log → Except Failover.ErrorKind Unit → Prop
  | copied (past : Log) (result : Except IoErrorKind Unit) :
      EndedBy timeouts (past ++ [(.copied result, ())]) (result.mapError classify_copy_failure)
  | reaped (past : Log) (now : Nat) : timeouts.half_close_timeout ≠ 0 → ShutDown past →
      Quiet timeouts.half_close_timeout now past → EndedBy timeouts (past ++ [(.watch now, ())]) (.error .HalfClosed)
  | idle (past : Log) (now : Nat) : timeouts.idle_timeout ≠ 0 → timeouts.began + timeouts.idle_timeout ≤ now →
      EndedBy timeouts (past ++ [(.delay now, ())]) (.error .IdleTimeout)

/-- The task of a session is woken by `now`: the permit is there, or the timer runs out. -/
def Woken (s : Session) (now : Nat) : Prop :=
  s.expired = .notified ∧ s.watch.notified = true ∨ ∃ deadline ≤ now, s.expired = .sleep deadline

section Watch

variable {timeouts : Timeouts} {s s' : Session} {clock window : Nat} {log : Log} {x : Event × Unit}

theorem shutDown_concat (log : Log) (x : Event × Unit) : ShutDown (log ++ [x]) = (ShutDown log || x.1.shuts) := by
  simp [ShutDown]

theorem quiet_concat {now : Nat} : Quiet window now (log ++ [x]) ↔
    Quiet window now log ∧ (ShutDown (log ++ [x]) → ∀ t, x.1.activity = some t → t + window ≤ now) := by
  constructor
  · intro h
    exact ⟨fun past y hpre => h past y (hpre.trans (List.prefix_append _ _)), h log x (List.prefix_refl _)⟩
  · rintro ⟨h, hx⟩ past y hpre
    rcases List.prefix_concat_iff.1 hpre with heq | hpre
    · obtain ⟨rfl, hxy⟩ := List.append_inj' heq rfl
      cases hxy
      exact hx
    · exact h past y hpre

theorem quiet_of_not_shutDown (h : ShutDown log = false) (window now : Nat) : Quiet window now log := by
  rintro past x ⟨rest, rfl⟩ hshut
  rw [ShutDown, List.any_append, Bool.or_eq_false_iff] at h
  rw [ShutDown, h.1] at hshut
  cases hshut

/-- What the watch holds of the events so far. `expired` waits for a permit that is there
once the watch is armed, or for a timer that is due when the window is over or before. -/
structure Tracks (window : Nat) (s : Session) (clock : Nat) (log : Log) : Prop where
  armed : s.watch.armed = ShutDown log
  last_le : s.watch.last_activity_ns ≤ clock
  quiet : ShutDown log → ∀ now, Quiet window now log ↔ s.watch.last_activity_ns + window ≤ now
  notified : s.expired = .notified → s.watch.notified = s.watch.armed
  sleeping : ∀ deadline, s.expired = .sleep deadline →
    s.watch.armed = true ∧ deadline ≤ s.watch.last_activity_ns + window

section

variable (h : Tracks window s clock log)

include h

theorem Tracks.same {clock' : Nat} (hclock : clock ≤ clock')
    (hwatch : s'.watch = s.watch) (hexpired : s'.expired = s.expired) (hshuts : x.1.shuts = false)
    (hactivity : ShutDown log → x.1.activity = none) : Tracks window s' clock' (log ++ [x]) := by
  have hshut : ShutDown (log ++ [x]) = ShutDown log := by rw [shutDown_concat, hshuts, Bool.or_false]
  obtain ⟨harmed, hlast, hquiet, hnotified, hsleeping⟩ := h
  simp only [← hwatch, ← hexpired] at harmed hlast hquiet hnotified hsleeping
  refine ⟨by rw [hshut, harmed], hlast.trans hclock, fun hlog now => ?_, hnotified, hsleeping⟩
  rw [hshut] at hlog
  rw [← hquiet hlog now, quiet_concat]
  exact and_iff_left fun _ t ht => by rw [hactivity hlog] at ht; cases ht

/-- An event that sets the clock of the watch, which is armed by then. -/
theorem Tracks.refresh {t : Nat} (notified : Bool) (hclock : clock ≤ t) (hwatch : s'.watch = ⟨true, t, notified⟩)
    (hexpired : s'.expired = s.expired) (hactivity : x.1.activity = some t) (hshut : ShutDown (log ++ [x]) = true)
    (hnotified : s.expired = .notified → notified = true) :
    Tracks window s' t (log ++ [x]) := by
  have hlast := h.last_le
  refine ⟨by rw [hwatch, hshut], by rw [hwatch], fun _ now => ?_, fun hx => ?_, fun deadline hx => ?_⟩
  · rw [hwatch, quiet_concat]
    refine ⟨fun hq => hq.2 hshut t hactivity, fun hle => ⟨?_, fun _ t' ht' => ?_⟩⟩
    · cases hlog : ShutDown log with
      | false => exact quiet_of_not_shutDown hlog window now
      | true => exact (h.quiet hlog now).2 (by dsimp only at hle; omega)
    · cases hactivity.symm.trans ht'
      exact hle
  · rw [hwatch, hnotified (hexpired ▸ hx)]
  · have hdue := (h.sleeping deadline (hexpired ▸ hx)).2
    rw [hwatch]
    exact ⟨rfl, by dsimp only; omega⟩

theorem Tracks.read (side : Side) {now : Nat} (hclock : clock ≤ now) (result : Poll Nat) :
    Tracks window (s.step timeouts (.read side now result)) now (log ++ [(.read side now result, ())]) := by
  rcases result with _ | _ | read
  · exact h.same hclock rfl rfl rfl fun _ => rfl
  · exact h.same hclock rfl rfl rfl fun _ => rfl
  · by_cases hread : read > 0
    · cases harmed : s.watch.armed with
      | false =>
        refine h.same hclock ?_ rfl rfl fun hlog => ?_
        · simp [step, Watched.poll_read, HalfCloseWatch.record_activity, hread, harmed]
        · rw [← h.armed, harmed] at hlog
          cases hlog
      | true =>
        refine h.refresh s.watch.notified hclock ?_ rfl (by simp [Event.activity, hread]) ?_
          fun hx => (h.notified hx).trans harmed
        · simp [step, Watched.poll_read, HalfCloseWatch.record_activity, hread, harmed]
        · rw [shutDown_concat, ← h.armed, harmed, Bool.true_or]
    · refine h.same hclock ?_ rfl rfl fun _ => ?_
      · simp [step, Watched.poll_read, hread]
      · simp [Event.activity, hread]

theorem Tracks.shutdown (side : Side) {now : Nat} (hclock : clock ≤ now) (result : Poll Unit) :
    Tracks window (s.step timeouts (.shutdown side now result)) now (log ++ [(.shutdown side now result, ())]) := by
  cases side with
  | upstream => rcases result with _ | _ | _ <;> exact h.same hclock rfl rfl rfl fun _ => rfl
  | client =>
    rcases result with _ | _ | _
    · exact h.same hclock rfl rfl rfl fun _ => rfl
    · exact h.same hclock rfl rfl rfl fun _ => rfl
    · refine h.refresh (s.watch.notified || !s.watch.armed) hclock ?_ rfl rfl ?_ fun hx => ?_
      · simp only [step, Watched.poll_shutdown, Watched.arms_on_shutdown, HalfCloseWatch.arm]
        cases harmed : s.watch.armed <;> simp
      · rw [shutDown_concat]
        exact Bool.or_true _
      · rw [h.notified hx, Bool.or_not_self]

end

theorem quiet_eq_none {w : HalfCloseWatch} {now : Nat} (hle : w.last_activity_ns ≤ now) :
    w.quiet window now = none ↔ w.last_activity_ns + window ≤ now := by
  simp only [HalfCloseWatch.quiet]
  split
  · exact iff_of_false nofun (by omega)
  · exact iff_of_true rfl (by omega)

theorem Tracks.poll_none (h : Tracks window s clock log) {now : Nat} (hclock : clock ≤ now) :
    (s.watch.poll_expired window now s.expired).2 = none ↔
      s.watch.armed = true ∧ s.watch.last_activity_ns + window ≤ now := by
  have hle : s.watch.quiet window now = none ↔ _ := quiet_eq_none (h.last_le.trans hclock)
  cases hx : s.expired with
  | notified =>
    cases harmed : s.watch.armed <;> simp [HalfCloseWatch.poll_expired, h.notified hx, harmed, hle]
  | sleep deadline =>
    obtain ⟨harmed, hdue⟩ := h.sleeping deadline hx
    simp only [HalfCloseWatch.poll_expired]
    split
    · exact iff_of_false nofun fun hend => by omega
    · rw [hle, and_iff_right harmed]

/-- And where it is not, the timer is set for when the window is over. -/
theorem Tracks.poll_some (h : Tracks window s clock log) {now : Nat} (hclock : clock ≤ now) {w : HalfCloseWatch}
    {expired : Expired} (hpoll : s.watch.poll_expired window now s.expired = (w, some expired)) :
    Tracks window { s with watch := w, expired } clock log := by
  have hle : s.watch.last_activity_ns ≤ now := h.last_le.trans hclock
  have hsleep (notified : Bool) (harmed : s.watch.armed = true) (hq : s.watch.quiet window now = some expired) :
      Tracks window { s with watch := { s.watch with notified }, expired } clock log := by
    simp only [HalfCloseWatch.quiet] at hq
    split at hq <;> cases hq
    exact ⟨h.armed, h.last_le, h.quiet, nofun, fun _ hx => by cases hx; exact ⟨harmed, by dsimp only; omega⟩⟩
  cases hx : s.expired with
  | notified =>
    simp only [hx, HalfCloseWatch.poll_expired] at hpoll
    split at hpoll
    · next hnotified =>
      obtain ⟨rfl, hq⟩ := Prod.mk.inj hpoll
      exact hsleep false ((h.notified hx).symm.trans hnotified) hq
    · cases hpoll
      rwa [← hx]
  | sleep deadline =>
    simp only [hx, HalfCloseWatch.poll_expired] at hpoll
    split at hpoll
    · cases hpoll
      rwa [← hx]
    · obtain ⟨rfl, hq⟩ := Prod.mk.inj hpoll
      exact hsleep s.watch.notified (h.sleeping _ hx).1 hq

/-! ## Every session -/

/-- Until it ends the watch is in step with the events, and it ends for a reason. -/
structure Supervised (timeouts : Timeouts) (s : Session) (clock : Nat) (log : Log) : Prop where
  tracks : s.ended = none → Tracks timeouts.half_close_timeout s clock log
  ended : ∀ result, s.ended = some result → EndedBy timeouts log result

theorem supervised_step (h : Supervised timeouts s clock log) (e : Event) (hrunning : s.ended = none)
    (hclock : clock ≤ e.reading.getD clock) :
    Supervised timeouts (s.step timeouts e) (e.reading.getD clock) (log ++ [(e, ())]) := by
  have htracks := h.tracks hrunning
  have hgoes {s' : Session} (hs' : s'.ended = s.ended)
      (ht : Tracks timeouts.half_close_timeout s' (e.reading.getD clock) (log ++ [(e, ())])) :
      Supervised timeouts s' (e.reading.getD clock) (log ++ [(e, ())]) :=
    ⟨fun _ => ht, fun result hr => by rw [hs', hrunning] at hr; cases hr⟩
  cases e with
  | read side now result => exact hgoes rfl (htracks.read side hclock result)
  | shutdown side now result => exact hgoes rfl (htracks.shutdown side hclock result)
  | copied result => exact ⟨nofun, fun _ hr => Option.some.inj hr ▸ .copied log result⟩
  | watch now =>
    simp only [step]
    split
    · exact hgoes rfl (htracks.same hclock rfl rfl rfl fun _ => rfl)
    · next htimeout =>
      split
      · next hpoll => exact hgoes rfl ((htracks.poll_some hclock hpoll).same hclock rfl rfl rfl fun _ => rfl)
      · next hpoll =>
        refine ⟨nofun, fun _ hr => Option.some.inj hr ▸ ?_⟩
        obtain ⟨harmed, hdue⟩ := (htracks.poll_none hclock).1 (congrArg Prod.snd hpoll)
        have hshut : ShutDown log = true := htracks.armed.symm.trans harmed
        exact .reaped log now htimeout hshut ((htracks.quiet hshut now).2 hdue)
  | delay now =>
    simp only [step]
    split
    · exact hgoes rfl (htracks.same hclock rfl rfl rfl fun _ => rfl)
    · next hlate =>
      obtain ⟨htimeout, hlate⟩ := not_or.1 hlate
      exact ⟨nofun, fun _ hr => Option.some.inj hr ▸ .idle log now htimeout (Nat.not_lt.1 hlate)⟩

theorem run_supervised
    (h : (forward timeouts).RunWhere Running .new s clock log) : Supervised timeouts s clock log := by
  refine Machine.RunWhere.inv (Supervised timeouts) ⟨fun _ => ?_, fun _ hr => by cases hr⟩
    (fun _ _ _ e hs hrunning hclock => supervised_step hs e hrunning hclock) h
  exact ⟨rfl, Nat.le_refl 0, nofun, fun _ => rfl, nofun⟩

/-- A session ends when the copy is done, when the idle timeout is over, or when nothing
has come for a whole window since the half to the client was shut down; and then it
does. -/
theorem ends_in_time (h : (forward timeouts).RunWhere Running .new s clock log) :
    (∀ result, s.ended = some result → EndedBy timeouts log result) ∧
    (s.ended = none → ∀ now, clock ≤ now →
      (timeouts.half_close_timeout ≠ 0 → ShutDown log → Quiet timeouts.half_close_timeout now log →
        Woken s now ∧ (s.step timeouts (.watch now)).ended = some (.error .HalfClosed)) ∧
      (timeouts.idle_timeout ≠ 0 → timeouts.began + timeouts.idle_timeout ≤ now →
        (s.step timeouts (.delay now)).ended = some (.error .IdleTimeout))) := by
  have hs := run_supervised h
  refine ⟨hs.ended, fun hrunning now hclock => ⟨fun htimeout hshut hquiet => ?_, fun htimeout hlate => ?_⟩⟩
  · have htracks := hs.tracks hrunning
    have harmed : s.watch.armed = true := htracks.armed.trans hshut
    have hdue := (htracks.quiet hshut now).1 hquiet
    constructor
    · cases hx : s.expired with
      | notified => exact .inl ⟨hx, (htracks.notified hx).trans harmed⟩
      | sleep deadline => exact .inr ⟨deadline, (htracks.sleeping deadline hx).2.trans hdue, hx⟩
    · have hready := (htracks.poll_none hclock).2 ⟨harmed, hdue⟩
      simp only [step, if_neg htimeout]
      split
      · next hpoll =>
        rw [hpoll] at hready
        cases hready
      · rfl
  · simp only [step, htimeout, Nat.not_lt.2 hlate, or_self, if_false]

end Watch

/-- The half to the client is shut down at 5, and the client sends once more at 7. With a
window of 10 the timer set at 5 runs out too early. -/
theorem ends_in_time_lingering :
    (((forward ⟨10, 0, 0⟩).exec .new [.shutdown .client 5 (.Ready (.ok ())), .watch 5,
      .read .client 7 (.Ready (.ok 3)), .watch 15]).2.step ⟨10, 0, 0⟩ (.watch 17)).ended =
        some (.error .HalfClosed) := by
  have h₀ : (forward ⟨10, 0, 0⟩).RunWhere Running .new .new 0 [] := .nil
  have h₁ := h₀.step (Event.shutdown .client 5 (.Ready (.ok ()))) rfl (by decide)
  have h₂ := (h₁.step (Event.watch 5) rfl (by decide)).step (Event.read .client 7 (.Ready (.ok 3))) rfl (by decide)
  have h := h₂.step (Event.watch 15) rfl (by decide)
  refine (((ends_in_time h).2 rfl 17 (by decide)).1 (by decide) rfl ?_).2
  iterate 4 refine quiet_concat.2 ⟨?_, by rintro - t ⟨⟩ <;> decide⟩
  exact quiet_of_not_shutDown rfl _ _

end Session

end Symphony.Proxy
