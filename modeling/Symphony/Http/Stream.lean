import Symphony.Http.Pump
/-!
# Reading a fragmented stream

The request pump against a client whose bytes arrive in non-empty fragments. A
read takes what fits of the next fragment. What a reading function does is stated
about the whole stream, the buffered bytes and every fragment to come: `Reaches`
says how a program ends, what it has written and what it leaves unread, so that
no fragmentation shows. The limits are the exception: a header block or control
line over its limit may be cut off, depending on how it arrives.
-/

namespace Symphony.Http

open Lib (Prog position)

/-! ## The client's side of the connection -/

/-- What the request pump runs against: its buffer, the fragments to come, what
it has written, the requests announced, and the verdicts to come. -/
structure World where
  carry : Bytes
  input : List Bytes
  writes : List (Site × Bytes)
  metas : List RequestMeta
  verdicts : List (Option Bool)
  next_id : Nat

def handle : (o : Op) → World → o.Ans × World
  | .get_carry, w => (w.carry, w)
  | .set_carry carry, w => ((), { w with carry := carry })
  | .read max, w =>
    match w.input with
    | [] => (.ok [], w)
    | c :: cs =>
      if c.length ≤ max then (.ok c, { w with input := cs })
      else (.ok (c.take max), { w with input := c.drop max :: cs })
  | .write_all site buf, w => (.ok (), { w with writes := w.writes ++ [(site, buf)] })
  | .oneshot, w => (w.next_id, { w with next_id := w.next_id + 1 })
  | .send _ m, w => (true, { w with metas := w.metas ++ [m] })
  | .verdict _, w => (w.verdicts.head?.join, { w with verdicts := w.verdicts.tail })
  | .recv _, w => (none, w)
  | .send_verdict _ _, w => ((), w)

/-- A connection on which the client sends these fragments. -/
def World.init (input : List Bytes) (verdicts : List (Option Bool)) : World := ⟨[], input, [], [], verdicts, 0⟩

/-- The bytes not consumed yet. -/
def World.stream (w : World) : Bytes := w.carry ++ w.input.flatten

def World.Ready (w : World) : Prop := ∀ c ∈ w.input, c ≠ []

/-- The bytes of some writes. -/
def written (ws : List (Site × Bytes)) : Bytes := ws.flatMap (·.2)

variable {w : World} {α : Type} {s : Bytes}

variable (rewrites : List HeaderRewrite) (fuel : Nat)

theorem written_append (ws ws' : List (Site × Bytes)) : written (ws ++ ws') = written ws ++ written ws' := by
  simp [written]

/-- The world after reading and writing. -/
def World.step (w : World) (carry : Bytes) (input : List Bytes) (ws : List (Site × Bytes)) : World :=
  { w with carry := carry, input := input, writes := w.writes ++ ws }

theorem step_step (w : World) (c c' : Bytes) (i i' : List Bytes) (ws ws' : List (Site × Bytes)) :
    (w.step c i ws).step c' i' ws' = w.step c' i' (ws ++ ws') := by
  simp [World.step]

theorem step_self (w : World) : w.step w.carry w.input [] = w := by simp [World.step]

/-! ## Ends of a program -/

/-- Run from `w`, the program ends with `res`, leaves `rest` unread and has
written `b` as body bytes. -/
def Reaches {α : Type} (p : Pump α) (w : World) (res : Except Stop α) (rest b : Bytes) : Prop :=
  ∃ c i ws, Prog.run handle p w = (res, w.step c i ws) ∧ c ++ i.flatten = rest ∧ (∀ x ∈ i, x ≠ []) ∧
    (∀ x ∈ ws, x.1 = .body) ∧ written ws = b

theorem Reaches.pure (hw : w.Ready) (a : α) : Reaches (Pure.pure a) w (.ok a) w.stream [] :=
  ⟨w.carry, w.input, [], by rw [step_self]; rfl, rfl, hw, by simp, rfl⟩

theorem Reaches.fail (hw : w.Ready) (e : Stop) :
    Reaches (.fail e : Pump α) w (.error e) w.stream [] :=
  ⟨w.carry, w.input, [], by rw [step_self]; rfl, rfl, hw, by simp, rfl⟩

/-- A program followed by another, when the first returns: the second goes on
from a world that holds what the first has left unread. -/
theorem Reaches.bind {p : Pump α} {a : α} {rest b : Bytes} (hp : Reaches p w (.ok a) rest b) :
    ∃ w' : World, w'.Ready ∧ w'.stream = rest ∧ ∀ {β : Type} (f : α → Pump β) {res : Except Stop β} {rest' b' : Bytes},
      Reaches (f a) w' res rest' b' → Reaches (p >>= f) w res rest' (b ++ b') := by
  obtain ⟨c, i, ws, hrun, hrest, hne, hbody, hb⟩ := hp
  refine ⟨w.step c i ws, hne, hrest, fun f res rest' b' hf => ?_⟩
  obtain ⟨c', i', ws', hrun', hrest', hne', hbody', hb'⟩ := hf
  refine ⟨c', i', ws ++ ws', ?_, hrest', hne', ?_, ?_⟩
  · rw [Prog.run_bind, hrun]
    simp only [Prog.andThen_ok]
    rw [hrun', step_step]
  · intro x hx
    rcases List.mem_append.1 hx with h | h
    · exact hbody x h
    · exact hbody' x h
  · rw [← hb, ← hb']
    simp [written]

theorem Reaches.bind_error {β : Type} {p : Pump α} (f : α → Pump β) {e : Stop} {rest b : Bytes}
    (hp : Reaches p w (.error e) rest b) : Reaches (p >>= f) w (.error e) rest b := by
  obtain ⟨c, i, ws, hrun, h⟩ := hp
  exact ⟨c, i, ws, by rw [Prog.run_bind, hrun, Prog.andThen_error], h⟩

theorem Reaches.write_all (hw : w.Ready) (buf : Bytes) :
    Reaches (write_all .body buf) w (.ok ()) w.stream buf :=
  ⟨w.carry, w.input, [(.body, buf)], rfl, rfl, hw, by simp, by simp [written]⟩

/-- The buffer may be cut anywhere: what is taken off is not part of the stream any more. -/
theorem run_set_carry (w : World) (c : Bytes) :
    Prog.run handle (set_carry c) w = (.ok (), w.step c w.input []) := by
  simp [set_carry, World.step, Prog.run, handle, Prog.perform]

theorem run_write_all (w : World) (site : Site) (buf : Bytes) :
    Prog.run handle (write_all site buf) w = (.ok (), w.step w.carry w.input [(site, buf)]) := rfl

theorem run_get_carry (w : World) : Prog.run handle get_carry w = (.ok w.carry, w) := rfl

/-- A read takes a piece off the fragments; nothing only at their end. -/
theorem run_read (w : World) (hw : w.Ready) {max : Nat} (hmax : 0 < max) :
    ∃ t i, Prog.run handle (read max) w = (.ok t, w.step w.carry i []) ∧ t ++ i.flatten = w.input.flatten ∧
      (∀ c ∈ i, c ≠ []) ∧ t.length ≤ max ∧ (t = [] → w.input.flatten = []) := by
  have hrun : Prog.run handle (read max) w = Prog.run handle (lift (handle (.read max) w).1) (handle (.read max) w).2 :=
    rfl
  rw [hrun]
  cases hi : w.input with
  | nil => exact ⟨[], w.input, by rw [step_self]; simp [handle, hi, lift], by simp [hi], hw, Nat.zero_le _, by simp⟩
  | cons c cs =>
    have hc : c ≠ [] := hw c (by simp [hi])
    have hcs : ∀ x ∈ cs, x ≠ [] := fun x hx => hw x (by simp [hi, hx])
    by_cases hle : c.length ≤ max
    · exact ⟨c, cs, by simp [handle, hi, hle, lift, World.step], by simp, hcs, hle, fun h => absurd h hc⟩
    · refine ⟨c.take max, c.drop max :: cs, by simp [handle, hi, hle, lift, World.step], ?_, ?_, ?_, ?_⟩
      · simp [← List.append_assoc]
      · intro x hx
        rcases List.mem_cons.1 hx with rfl | hx
        · simpa using hle
        · exact hcs x hx
      · rw [List.length_take]
        omega
      · intro h
        rw [List.take_eq_nil_iff] at h
        rcases h with h | h
        · omega
        · exact absurd h hc

/-! ## Bounded reads -/

/-- What a bounded read finds on the whole stream. -/
def frame (u : Until) (s : Bytes) : Except IoError (Option Nat) :=
  match position u.pat s with
  | some n => .ok (some (n + u.pat.length))
  | none => if s.length > u.limit then .error u.too_long else u.at_eof s

/-- The search can leave out the bytes before `scanned`. -/
def CanSkip (pat carry : Bytes) (scanned : Nat) : Prop :=
  position pat carry = (position pat (carry.drop scanned)).map (· + scanned)

theorem canSkip_zero (pat carry : Bytes) : CanSkip pat carry 0 := by simp [CanSkip]

theorem canSkip_append {pat : Bytes} (hp : pat ≠ []) {carry : Bytes} (h : position pat carry = none) (t : Bytes) :
    CanSkip pat (carry ++ t) (carry.length - (pat.length - 1)) := by
  by_cases hle : pat.length - 1 ≤ carry.length
  · have := List.length_pos_iff.2 hp
    exact Lib.position_resume hp h t (by omega)
  · rw [Nat.sub_eq_zero_of_le (by omega)]
    exact canSkip_zero pat _

/-- A bounded read ends as on the whole stream, or at its limit because the
pattern lies beyond it, or without fuel. -/
theorem run_read_until (u : Until) (hp : u.pat ≠ []) (hbuf : 0 < u.buf) (fuel scanned : Nat) (w : World)
    (hw : w.Ready) (hs : CanSkip u.pat w.carry scanned) :
    ∃ res c i, Prog.run handle (read_until u fuel scanned) w = (res, w.step c i []) ∧ c ++ i.flatten = w.stream ∧
      (∀ x ∈ i, x ≠ []) ∧
      ((res = (frame u w.stream).mapError .io ∧ ∀ n, position u.pat w.stream = some n → n + u.pat.length ≤ c.length) ∨
        (res = .error (.io u.too_long) ∧ ∃ n, position u.pat w.stream = some n ∧ u.limit < n + u.pat.length) ∨
        (res = .error .spin ∧ fuel ≤ w.input.flatten.length)) := by
  induction fuel generalizing scanned w with
  | zero => exact ⟨_, w.carry, w.input, by rw [step_self]; rfl, rfl, hw, .inr (.inr ⟨rfl, Nat.zero_le _⟩)⟩
  | succ fuel ih =>
    rw [read_until, Prog.run_bind, run_get_carry]
    simp only [Prog.andThen_ok]
    cases hd : position u.pat (w.carry.drop scanned) with
    | some rel =>
      have hc : position u.pat w.carry = some (scanned + rel) := by
        rw [hs, hd, Option.map_some, Nat.add_comm]
      have hS : position u.pat w.stream = some (scanned + rel) := Lib.position_append hp hc _
      refine ⟨_, w.carry, w.input, by rw [step_self]; rfl, rfl, hw, .inl ⟨?_, ?_⟩⟩
      · simp [frame, hS, Except.mapError]
      · intro n hn
        rw [hS, Option.some.injEq] at hn
        rw [← hn]
        exact Lib.position_le hp hc
    | none =>
      have hc : position u.pat w.carry = none := by rw [hs, hd, Option.map_none]
      simp only
      by_cases hlim : w.carry.length > u.limit
      · rw [if_pos hlim]
        refine ⟨_, w.carry, w.input, by rw [step_self]; rfl, rfl, hw, ?_⟩
        cases hS : position u.pat w.stream with
        | none =>
          have hlen : w.stream.length > u.limit := by
            rw [World.stream, List.length_append]
            omega
          exact .inl ⟨by simp [frame, hS, hlen, Except.mapError], by simp⟩
        | some n =>
          refine .inr (.inl ⟨rfl, n, rfl, ?_⟩)
          by_contra hle
          have := Lib.position_of_append hp hS (by omega)
          rw [hc] at this
          cases this
      · rw [if_neg hlim, Prog.run_bind]
        obtain ⟨t, i, hread, hflat, hne, -, hnil⟩ := run_read w hw hbuf
        rw [hread]
        simp only [Prog.andThen_ok]
        by_cases ht : t = []
        · -- The end of the stream: what is buffered is all there is.
          have hS : w.stream = w.carry := by rw [World.stream, hnil ht, List.append_nil]
          have hi : i.flatten = [] := by rw [hnil ht, ht] at hflat; simpa using hflat
          rw [if_pos ht]
          refine ⟨_, w.carry, i, ?_, by rw [hi, hS, List.append_nil], hne, .inl ⟨rfl, ?_⟩⟩
          · rw [hS, frame, hc, if_neg hlim]
            cases u.at_eof w.carry <;> rfl
          · intro n hn
            rw [hS, hc] at hn
            cases hn
        · rw [if_neg ht, Prog.run_bind, run_set_carry]
          simp only [Prog.andThen_ok]
          have hstream : ((w.step w.carry i []).step (w.carry ++ t) i []).stream = w.stream := by
            change w.carry ++ t ++ i.flatten = w.carry ++ w.input.flatten
            rw [List.append_assoc, hflat]
          obtain ⟨res, c, j, hrun, hcj, hnej, hres⟩ := ih (w.carry.length - (u.pat.length - 1))
            ((w.step w.carry i []).step (w.carry ++ t) i []) hne (canSkip_append hp hc t)
          rw [hstream] at hcj hres
          refine ⟨res, c, j, ?_, hcj, hnej, ?_⟩
          · change Prog.run handle _ ((w.step w.carry i []).step (w.carry ++ t) i []) = _
            rw [hrun, step_step, step_step]
            rfl
          · rcases hres with h | h | ⟨h1, h2⟩
            · exact .inl h
            · exact .inr (.inl h)
            · refine .inr (.inr ⟨h1, ?_⟩)
              have hpos := List.length_pos_iff.2 ht
              rw [← hflat, List.length_append]
              change fuel ≤ i.flatten.length at h2
              omega

/-! ## Control lines -/

/-- The next control line with its CRLF, and what follows; or why there is none. -/
def cut_line (s : Bytes) : Except IoError (Bytes × Bytes) :=
  match next_line s with
  | some (l, r) => .ok (l ++ CRLF, r)
  | none => .error (if s.length > MAX_CHUNK_LINE then line_too_long else closed_mid_chunk)

theorem cut_line_ok {line r : Bytes} (h : cut_line s = .ok (line, r)) : s = line ++ r ∧ 2 ≤ line.length := by
  unfold cut_line at h
  split at h
  · rename_i l r' hn
    simp only [Except.ok.injEq, Prod.mk.injEq] at h
    obtain ⟨rfl, rfl⟩ := h
    exact ⟨(next_line_eq_some.1 hn).2, by simp [CRLF]⟩
  · cases h

theorem cut_line_of_position {n : Nat} (h : position CRLF s = some n) :
    cut_line s = .ok (s.take (n + 2), s.drop (n + 2)) := by
  have hn : next_line s = some (s.take n, s.drop (n + 2)) := by rw [next_line, h, Option.map_some]
  have hs := (next_line_eq_some.1 hn).2
  have hlen : (s.take n ++ CRLF).length = n + 2 := by
    have := Lib.position_le (by simp [CRLF]) h
    rw [List.length_append, List.length_take]
    simp only [CRLF, List.length_cons, List.length_nil] at this ⊢
    omega
  have htake : s.take (n + 2) = s.take n ++ CRLF := by
    conv_lhs => rw [hs, ← hlen, List.take_left]
  simp [cut_line, hn, htake]

theorem frame_line_some {n : Nat} (h : position CRLF s = some n) :
    frame line_end s = .ok (some (n + 2)) := by
  rw [frame, show line_end.pat = CRLF from rfl, h]
  rfl

theorem frame_line_none (h : position CRLF s = none) :
    frame line_end s = .error (if s.length > MAX_CHUNK_LINE then line_too_long else closed_mid_chunk) := by
  rw [frame, show line_end.pat = CRLF from rfl, h]
  change (if s.length > MAX_CHUNK_LINE then Except.error line_too_long else Except.error closed_mid_chunk) = _
  split <;> rfl

/-- Reading a control line takes the stream's next line, whatever the fragments. -/
theorem reaches_control_line (w : World) (hw : w.Ready) :
    ∃ res rest, Reaches (read_control_line fuel) w res rest [] ∧
      ((∃ line, res = .ok line ∧ cut_line w.stream = .ok (line, rest)) ∨
        (∃ e, res = .error (.io e) ∧ cut_line w.stream = .error e) ∨
        (res = .error (.io line_too_long) ∧ ∃ line r, cut_line w.stream = .ok (line, r) ∧
          MAX_CHUNK_LINE < line.length) ∨
        (res = .error .spin ∧ fuel ≤ w.stream.length)) := by
  obtain ⟨res, c, i, hrun, hci, hne, hres⟩ := run_read_until line_end (by simp [line_end, CRLF]) (by decide)
    fuel 0 w hw (canSkip_zero _ _)
  have hfuel : fuel ≤ w.input.flatten.length → fuel ≤ w.stream.length := fun h => by
    rw [World.stream, List.length_append]
    omega
  -- What follows a failed read is left out.
  have herr : ∀ e, res = .error e → Reaches (read_control_line fuel) w (.error e) w.stream [] := fun e he =>
    ⟨c, i, [], by rw [read_control_line, Prog.run_bind, hrun, he, Prog.andThen_error], hci, hne, by simp, rfl⟩
  rcases hres with ⟨hframe, hcov⟩ | ⟨rfl, n, hn, hlong⟩ | ⟨rfl, hf⟩
  · cases hp : position CRLF w.stream with
    | some n =>
      have hcov : n + 2 ≤ c.length := hcov n hp
      have hframe : res = .ok (some (n + 2)) := by
        rw [hframe, frame_line_some hp]
        rfl
      have hc : w.stream = c ++ i.flatten := hci.symm
      refine ⟨.ok (c.take (n + 2)), c.drop (n + 2) ++ i.flatten, ?_, .inl ⟨_, rfl, ?_⟩⟩
      · refine ⟨c.drop (n + 2), i, [], ?_, rfl, hne, by simp, rfl⟩
        rw [read_control_line, Prog.run_bind, hrun, hframe]
        simp only [Prog.run_bind, Prog.andThen_ok, run_get_carry, run_set_carry, step_step]
        rfl
      · rw [cut_line_of_position hp, hc, List.take_append_of_le_length hcov, List.drop_append_of_le_length hcov]
    | none =>
      have hcut : cut_line w.stream = .error (if w.stream.length > MAX_CHUNK_LINE then line_too_long
          else closed_mid_chunk) := by simp [cut_line, next_line, hp]
      have hframe : res = .error (.io (if w.stream.length > MAX_CHUNK_LINE then line_too_long
          else closed_mid_chunk)) := by
        rw [hframe, frame_line_none hp]
        rfl
      exact ⟨_, _, herr _ hframe, .inr (.inl ⟨_, rfl, hcut⟩)⟩
  · refine ⟨_, _, herr _ rfl, .inr (.inr (.inl ⟨rfl, _, _, cut_line_of_position hn, ?_⟩))⟩
    have hle := Lib.position_le (by simp [line_end, CRLF]) hn
    simp only [line_end, CRLF, List.length_cons, List.length_nil] at hlong hle
    rw [List.length_take]
    omega
  · exact ⟨_, _, herr _ rfl, .inr (.inr (.inr ⟨rfl, hfuel hf⟩))⟩

/-- With fuel to spare, a line within the limit is read. -/
theorem control_line_ok {fuel : Nat} (hw : w.Ready) {line r : Bytes} (h : cut_line w.stream = .ok (line, r))
    (hlen : line.length ≤ MAX_CHUNK_LINE) (hfuel : w.stream.length < fuel) :
    Reaches (read_control_line fuel) w (.ok line) r [] := by
  obtain ⟨res, rest, hr, hres⟩ := reaches_control_line fuel w hw
  rw [h] at hres
  rcases hres with ⟨line', rfl, he⟩ | ⟨e, -, he⟩ | ⟨-, line', r', he, hlong⟩ | ⟨-, hf⟩
  · simp only [Except.ok.injEq, Prod.mk.injEq] at he
    rwa [← he.1, ← he.2] at hr
  · cases he
  · simp only [Except.ok.injEq, Prod.mk.injEq] at he
    rw [← he.1] at hlong
    omega
  · omega

theorem control_line_error {fuel : Nat} (hw : w.Ready) {e : IoError} (h : cut_line w.stream = .error e)
    (hfuel : w.stream.length < fuel) : ∃ rest, Reaches (read_control_line fuel) w (.error (.io e)) rest [] := by
  obtain ⟨res, rest, hr, hres⟩ := reaches_control_line fuel w hw
  rw [h] at hres
  rcases hres with ⟨line', -, he⟩ | ⟨e', rfl, he⟩ | ⟨-, line', r', he, -⟩ | ⟨-, hf⟩
  · cases he
  · simp only [Except.error.injEq] at he
    exact ⟨rest, he ▸ hr⟩
  · cases he
  · omega

/-! ## Header blocks -/

/-- Reading a header block finds the stream's first blank line, whatever the fragments. -/
theorem run_header_block (w : World) (hw : w.Ready) :
    ∃ res c i, Prog.run handle (read_header_block fuel) w = (res, w.step c i []) ∧ c ++ i.flatten = w.stream ∧
      (∀ x ∈ i, x ≠ []) ∧
      ((∃ n, res = .ok (some (n + 4)) ∧ position CRLFCRLF w.stream = some n ∧ n + 4 ≤ c.length) ∨
        (res = .ok none ∧ w.stream = []) ∨
        (res = .error (.io (if w.stream.length > MAX_HEADER_SIZE then headers_too_long else closed_mid_header)) ∧
          position CRLFCRLF w.stream = none ∧ w.stream ≠ []) ∨
        (res = .error (.io headers_too_long) ∧ ∃ n, position CRLFCRLF w.stream = some n ∧ MAX_HEADER_SIZE < n + 4) ∨
        (res = .error .spin ∧ fuel ≤ w.stream.length)) := by
  obtain ⟨res, c, i, hrun, hci, hne, hres⟩ := run_read_until header_end (by simp [header_end, CRLFCRLF]) (by decide)
    fuel 0 w hw (canSkip_zero _ _)
  refine ⟨res, c, i, hrun, hci, hne, ?_⟩
  rcases hres with ⟨hframe, hcov⟩ | ⟨rfl, n, hn, hlong⟩ | ⟨rfl, hf⟩
  · rw [frame, show header_end.pat = CRLFCRLF from rfl] at hframe
    cases hp : position CRLFCRLF w.stream with
    | some n =>
      rw [hp] at hframe
      exact .inl ⟨n, hframe, rfl, hcov n hp⟩
    | none =>
      rw [hp] at hframe
      change res = ((if w.stream.length > MAX_HEADER_SIZE then Except.error headers_too_long
        else if w.stream = [] then .ok none else .error closed_mid_header) : Except IoError (Option Nat)).mapError .io
        at hframe
      by_cases hlong : w.stream.length > MAX_HEADER_SIZE
      · rw [if_pos hlong] at hframe ⊢
        exact .inr (.inr (.inl ⟨hframe, rfl, fun h => by simp [h] at hlong⟩))
      · rw [if_neg hlong] at hframe ⊢
        by_cases hs : w.stream = []
        · rw [if_pos hs] at hframe
          exact .inr (.inl ⟨hframe, hs⟩)
        · rw [if_neg hs] at hframe
          exact .inr (.inr (.inl ⟨hframe, rfl, hs⟩))
  · exact .inr (.inr (.inr (.inl ⟨rfl, n, hn, hlong⟩)))
  · refine .inr (.inr (.inr (.inr ⟨rfl, ?_⟩)))
    rw [World.stream, List.length_append]
    omega

/-! ## Bodies -/

theorem reaches_copy_exact (n : Nat) (w : World) (hw : w.Ready) (hc : w.carry = []) :
    ∃ res rest b, Reaches (copy_exact fuel n) w res rest b ∧ b ++ rest = w.stream ∧ b.length ≤ n ∧
      ((res = .ok () ∧ b.length = n) ∨ (res = .error (.io closed_mid_body) ∧ rest = [] ∧ b.length < n) ∨
        (res = .error .spin ∧ fuel ≤ w.stream.length)) := by
  induction fuel generalizing n w with
  | zero => exact ⟨_, _, [], Reaches.fail hw _, by simp, Nat.zero_le _, .inr (.inr ⟨rfl, Nat.zero_le _⟩)⟩
  | succ fuel ih =>
    rw [copy_exact]
    by_cases hn : n = 0
    · rw [if_pos hn]
      exact ⟨_, _, [], Reaches.pure hw (), by simp, Nat.zero_le _, .inl ⟨rfl, hn.symm⟩⟩
    · rw [if_neg hn]
      obtain ⟨t, i, hread, hflat, hne, hmax, hnil⟩ := run_read w hw (show 0 < min n 8192 by omega)
      have hstream : w.stream = w.input.flatten := by rw [World.stream, hc, List.nil_append]
      by_cases ht : t = []
      · have hS : w.stream = [] := by rw [hstream, hnil ht]
        have hi : i.flatten = [] := by rw [hnil ht, ht] at hflat; simpa using hflat
        refine ⟨.error (.io closed_mid_body), [], [], ?_, by rw [hS]; rfl, Nat.zero_le _,
          .inr (.inl ⟨rfl, rfl, by simp only [List.length_nil]; omega⟩)⟩
        refine ⟨w.carry, i, [], ?_, by rw [hc, hi]; rfl, hne, by simp, rfl⟩
        rw [Prog.run_bind, hread]
        simp only [Prog.andThen_ok]
        rw [if_pos ht]
        rfl
      · -- The piece goes out, and the rest of the count is left for the other fragments.
        have hpos := List.length_pos_iff.2 ht
        obtain ⟨res, rest, b, ⟨c, j, ws, hrun, hcj, hnej, hbody, hb⟩, hsplit, hle, hres⟩ :=
          ih (n - t.length) (w.step w.carry i [(.body, t)]) hne hc
        have hstream' : (w.step w.carry i [(.body, t)]).stream = i.flatten := by
          change w.carry ++ i.flatten = i.flatten
          rw [hc, List.nil_append]
        rw [hstream'] at hsplit hres
        have hlen : w.stream.length = t.length + i.flatten.length := by rw [hstream, ← hflat, List.length_append]
        refine ⟨res, rest, t ++ b, ⟨c, j, (.body, t) :: ws, ?_, hcj, hnej, ?_, ?_⟩, ?_, ?_, ?_⟩
        · rw [Prog.run_bind, hread]
          simp only [Prog.andThen_ok]
          rw [if_neg ht, Prog.run_bind, run_write_all]
          change Prog.run handle (copy_exact fuel (n - t.length))
            ((w.step w.carry i []).step w.carry i [(.body, t)]) = _
          rw [step_step, List.nil_append, hrun, step_step]
          rfl
        · intro x hx
          rcases List.mem_cons.1 hx with rfl | hx
          · rfl
          · exact hbody x hx
        · rw [← hb]
          simp [written]
        · rw [List.append_assoc, hsplit, hstream, hflat]
        · rw [List.length_append]
          omega
        · rw [List.length_append]
          rcases hres with ⟨h1, h2⟩ | ⟨h1, h2, h3⟩ | ⟨h1, h2⟩
          · exact .inl ⟨h1, by omega⟩
          · exact .inr (.inl ⟨h1, h2, by omega⟩)
          · exact .inr (.inr ⟨h1, by omega⟩)

/-- Copying `n` bytes takes them off the stream, or all of it when it is shorter. -/
theorem reaches_copy_body (n : Nat) (w : World) (hw : w.Ready) :
    ∃ res rest b, Reaches (copy_body fuel n) w res rest b ∧ b ++ rest = w.stream ∧ b.length ≤ n ∧
      ((res = .ok () ∧ b.length = n) ∨ (res = .error (.io closed_mid_body) ∧ rest = [] ∧ b.length < n) ∨
        (res = .error .spin ∧ fuel ≤ w.stream.length)) := by
  have hhead : ∀ {res rest b}, Reaches (if n - min w.carry.length n > 0 then copy_exact fuel (n - min w.carry.length n)
      else pure ()) (w.step (w.carry.drop (min w.carry.length n)) w.input
        [(.body, w.carry.take (min w.carry.length n))]) res rest b →
      Reaches (copy_body fuel n) w res rest (w.carry.take (min w.carry.length n) ++ b) := by
    rintro res rest b ⟨c, i, ws, hrun, hci, hne, hbody, hb⟩
    refine ⟨c, i, (.body, w.carry.take (min w.carry.length n)) :: ws, ?_, hci, hne, ?_, ?_⟩
    · rw [copy_body, Prog.run_bind, run_get_carry]
      simp only [Prog.run_bind, Prog.andThen_ok, run_write_all, run_set_carry]
      change Prog.run handle _ ((w.step w.carry w.input [(.body, w.carry.take (min w.carry.length n))]).step
        (w.carry.drop (min w.carry.length n)) w.input []) = _
      rw [step_step, List.append_nil, hrun, step_step]
      rfl
    · intro x hx
      rcases List.mem_cons.1 hx with rfl | hx
      · rfl
      · exact hbody x hx
    · rw [← hb]
      simp [written]
  by_cases hn : n ≤ w.carry.length
  · -- All of it is buffered.
    rw [Nat.min_eq_right hn] at hhead
    rw [if_neg (by omega)] at hhead
    refine ⟨.ok (), w.carry.drop n ++ w.input.flatten, w.carry.take n ++ [],
      hhead (Reaches.pure (w := w.step (w.carry.drop n) w.input [(.body, w.carry.take n)]) hw ()), ?_, ?_,
      .inl ⟨rfl, ?_⟩⟩
    · rw [List.append_nil, ← List.append_assoc, List.take_append_drop]
      rfl
    · rw [List.append_nil, List.length_take]
      omega
    · rw [List.append_nil, List.length_take]
      omega
  · rw [Nat.min_eq_left (by omega)] at hhead
    rw [if_pos (by omega), List.drop_length, List.take_length] at hhead
    obtain ⟨res, rest, b, hr, hsplit, hle, hres⟩ := reaches_copy_exact fuel (n - w.carry.length)
      (w.step [] w.input [(.body, w.carry)]) hw rfl
    refine ⟨res, rest, w.carry ++ b, hhead hr, ?_, ?_, ?_⟩
    · rw [List.append_assoc, hsplit]
      rfl
    · rw [List.length_append]
      omega
    · rw [List.length_append]
      rcases hres with ⟨h1, h2⟩ | ⟨h1, h2, h3⟩ | ⟨h1, h2⟩
      · exact .inl ⟨h1, by omega⟩
      · exact .inr (.inl ⟨h1, h2, by omega⟩)
      · refine .inr (.inr ⟨h1, ?_⟩)
        change fuel ≤ ([] ++ w.input.flatten).length at h2
        rw [World.stream, List.length_append]
        rw [List.nil_append] at h2
        omega

/-! ## One request -/

/-- The world once a request is announced and its head written. -/
def World.announce (w : World) (block head rest : Bytes) (input : List Bytes) : World :=
  { w with
    carry := rest
    input := input
    writes := w.writes ++ [(.head, head)]
    metas := w.metas ++ [meta_of block (if is_tunnel_candidate block then some w.next_id else none)]
    next_id := if is_tunnel_candidate block then w.next_id + 1 else w.next_id }

/-- The world once the verdict on a tunnel candidate is in. -/
def World.decided (w : World) : World := { w with verdicts := w.verdicts.tail }

theorem run_send (w : World) (block : Bytes) (m : RequestMeta) :
    Prog.run handle (send block m) w = (.ok true, { w with metas := w.metas ++ [m] }) := rfl

/-- What follows a request: the next one, unless it was a tunnel candidate and
the verdict says otherwise. -/
def after_request (rewrites : List HeaderRewrite) (inner fuel : Nat) (block : Bytes) (w : World) :
    Except Stop Unit × World :=
  if is_tunnel_candidate block then
    match w.verdicts.head?.join with
    | some true => Prog.run handle (pass_through inner) w.decided
    | some false => Prog.run handle (rewrite_request_stream rewrites inner fuel) w.decided
    | none => (.ok (), w.decided)
  else Prog.run handle (rewrite_request_stream rewrites inner fuel) w

theorem run_no_request {inner : Nat} {w' : World} (h : Prog.run handle (read_header_block inner) w = (.ok none, w')) :
    Prog.run handle (rewrite_request_stream rewrites inner (fuel + 1)) w = (.ok (), w') := by
  rw [rewrite_request_stream, Prog.run_bind, h]
  rfl

theorem run_broken_request {inner : Nat} {w' : World} {e : Stop}
    (h : Prog.run handle (read_header_block inner) w = (.error e, w')) :
    Prog.run handle (rewrite_request_stream rewrites inner (fuel + 1)) w = (.error e, w') := by
  rw [rewrite_request_stream, Prog.run_bind, h]
  rfl

/-- One request of the pump, from the offset its header block ends at. -/
theorem run_request (inner fuel : Nat) (w : World) (c : Bytes) (i : List Bytes) (e : Nat)
    (h : Prog.run handle (read_header_block inner) w = (.ok (some e), w.step c i [])) :
    Prog.run handle (rewrite_request_stream rewrites inner (fuel + 1)) w =
      match rewrite_request_head (c.take e) rewrites, framed_body (c.take e) with
      | .error err, _ => (.error (.io err), w.step c i [])
      | .ok _, .error err => (.error (.io err), w.step c i [])
      | .ok head, .ok body =>
        Prog.andThen (Prog.run handle (copy_request_body inner body) (w.announce (c.take e) head (c.drop e) i))
          fun _ => after_request rewrites inner fuel (c.take e) := by
  rw [rewrite_request_stream, Prog.run_bind, h]
  simp only [Prog.run_bind, Prog.andThen_ok, run_get_carry]
  rw [show (w.step c i []).carry = c from rfl]
  cases hr : rewrite_request_head (c.take e) rewrites with
  | error err => rfl
  | ok head =>
    simp only [lift, Prog.run_pure, Prog.andThen_ok]
    cases hb : framed_body (c.take e) with
    | error err => rfl
    | ok body =>
      simp only [Prog.run_bind, Prog.run_pure, Prog.andThen_ok]
      cases hc : is_tunnel_candidate (c.take e) with
      | false =>
        have hv : Prog.run handle (verdict_channel false) (w.step c i []) = (.ok none, w.step c i []) := rfl
        have hw : ({ w.step c i [] with metas := w.metas ++ [meta_of (c.take e) none] }.step c i [(.head, head)]).step
            (c.drop e) i [] = w.announce (c.take e) head (c.drop e) i := by
          simp [World.step, World.announce, hc]
        rw [hv]
        simp only [run_send, run_write_all, run_set_carry, run_get_carry, Bool.not_true, Bool.false_eq_true, if_false,
          Prog.run_bind, Prog.andThen_ok]
        have ha : after_request rewrites inner fuel (c.take e) =
            Prog.run handle (rewrite_request_stream rewrites inner fuel) := by
          funext w'
          rw [after_request, hc, if_neg Bool.false_ne_true]
        rw [← hw, ha]
        rfl
      | true =>
        have hv : Prog.run handle (verdict_channel true) (w.step c i []) =
            (.ok (some w.next_id), { w.step c i [] with next_id := w.next_id + 1 }) := rfl
        have hw : ({ w.step c i [] with
            metas := w.metas ++ [meta_of (c.take e) (some w.next_id)]
            next_id := w.next_id + 1 }.step c i [(.head, head)]).step
            (c.drop e) i [] = w.announce (c.take e) head (c.drop e) i := by
          simp [World.step, World.announce, hc]
        rw [hv]
        simp only [run_send, run_write_all, run_set_carry, run_get_carry, Bool.not_true, Bool.false_eq_true, if_false,
          Prog.run_bind, Prog.andThen_ok]
        rw [← hw]
        refine congrArg (Prog.andThen _) (funext fun _ => funext fun w' => ?_)
        have hvd : Prog.run handle (verdict w.next_id) w' = (.ok w'.verdicts.head?.join, w'.decided) := rfl
        simp only [after_request, hc, if_true]
        rw [Prog.run_bind, hvd, Prog.andThen_ok]
        rcases w'.verdicts.head?.join with _ | _ | _ <;> rfl

end Symphony.Http
