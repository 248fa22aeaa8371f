import Symphony.Http.Refine
import Symphony.Http.Tunnel
/-!
# A pump in its own view

Of a connection a pump sees its own buffer and, for the request pump, the requests it has
forwarded with what it has written of their bodies. Any bytes may arrive and anything may
fail. Two things hold at every moment of every run: the buffer stays within a fixed size,
and every request forwarded is one the pump has framed, down to each chunk of its body.
With the gate of the tunnel switch, this bounds every write of the request pump.
-/

namespace Symphony.Http

open Lib (Prog Protocol position)
open Lib.Prog (Always Interleaved Reached)

/-! ## The view -/

/-- A pump's buffer, and the requests it has forwarded: header block, and body bytes. -/
structure View where
  carry : Bytes
  forwarded : List (Bytes × Bytes)

/-- More body bytes for the last request. -/
def extend (rs : List (Bytes × Bytes)) (buf : Bytes) : List (Bytes × Bytes) :=
  match rs.getLast? with
  | none => rs
  | some r => rs.dropLast ++ [(r.1, r.2 ++ buf)]

/-- How a pump's view follows its operations. Only the request pump forwards requests. -/
def sees (side : Side) : (o : Op) → View → o.Ans → View → Prop
  | .get_carry, v, a, v' => a = v.carry ∧ v' = v
  | .set_carry carry, v, _, v' => v' = { v with carry := carry }
  | .read max, v, a, v' => (∀ b, a = .ok b → b.length ≤ max) ∧ v' = v
  | .write_all .body buf, v, _, v' => v' = { v with forwarded := extend v.forwarded buf }
  | .send block _, v, a, v' =>
    (side = .request ∧ a = true ∧ v' = { v with forwarded := v.forwarded ++ [(block, [])] }) ∨
      ((side = .response ∨ a = false) ∧ v' = v)
  | _, v, _, v' => v' = v

/-- The requests forwarded in a log, each with the body bytes written for it. -/
def forwarded (log : List Event) : List (Bytes × Bytes) :=
  log.foldl (fun rs e => match e with
    | .sent block _ => rs ++ [(block, [])]
    | .wrote .request .body buf => extend rs buf
    | _ => rs) []

/-- What a pump sees of the connection. -/
def Conn.seen (c : Conn) : Side → View
  | .request => ⟨c.carry .request, forwarded c.log⟩
  | .response => ⟨c.carry .response, []⟩

variable {k : Bytes → Cut} {buf l : Bytes} {n : Nat}

theorem extend_nil (buf : Bytes) : extend [] buf = [] := rfl

theorem extend_concat (rs : List (Bytes × Bytes)) (block b buf : Bytes) :
    extend (rs ++ [(block, b)]) buf = rs ++ [(block, b ++ buf)] := by
  simp [extend]

theorem forwarded_append (log : List Event) (e : Event) :
    forwarded (log ++ [e]) = match e with
      | .sent block _ => forwarded log ++ [(block, [])]
      | .wrote .request .body buf => extend (forwarded log) buf
      | _ => forwarded log := by
  rw [forwarded, List.foldl_append]
  rfl

theorem sees_of_serves {side : Side} (o : Op) (c : Conn) (a : o.Ans) (c' : Conn) (h : serves side o c a c') :
    sees side o (c.seen side) a (c'.seen side) := by
  cases o with
  | get_carry =>
    obtain ⟨rfl, rfl⟩ := h
    cases side <;> exact ⟨rfl, rfl⟩
  | set_carry carry =>
    obtain rfl := h
    cases side <;> simp [sees, Conn.seen]
  | read max =>
    obtain ⟨hlen, rfl⟩ := h
    exact ⟨hlen, rfl⟩
  | write_all site buf =>
    obtain rfl := h
    cases side <;> cases site <;> simp [sees, Conn.seen, forwarded_append, extend_nil]
  | oneshot =>
    obtain ⟨-, rfl⟩ := h
    cases side <;> rfl
  | send block m =>
    rcases h with ⟨rfl, rfl⟩ | ⟨rfl, rfl⟩
    · cases side with
      | request => exact .inl ⟨rfl, rfl, by simp [Conn.seen, forwarded_append]⟩
      | response => exact .inr ⟨.inl rfl, rfl⟩
    · exact .inr ⟨.inr rfl, rfl⟩
  | verdict id =>
    obtain ⟨-, rfl⟩ := h
    rfl
  | recv head =>
    rcases h with ⟨m, q, -, rfl, rfl⟩ | ⟨rfl, rfl⟩
    · cases side <;> simp [sees, Conn.seen, forwarded_append]
    · rfl
  | send_verdict id accepted =>
    obtain rfl := h
    cases side <;> rfl

theorem seen_response {o : Op} {g : Asking} {rewrites : List HeaderRewrite} {c c' : Conn} {a : o.Ans}
    (_ : (request_protocol rewrites).allow o g) (h : serves .request o c a c') :
    c'.seen .response = c.seen .response := by
  cases o with
  | set_carry carry =>
    obtain rfl := h
    simp [Conn.seen]
  | write_all site buf =>
    obtain rfl := h
    rfl
  | send block m => rcases h with ⟨-, rfl⟩ | ⟨-, rfl⟩ <;> rfl
  | recv head => rcases h with ⟨m, q, -, -, rfl⟩ | ⟨-, rfl⟩ <;> rfl
  | send_verdict id accepted =>
    obtain rfl := h
    rfl
  | get_carry | read max | oneshot | verdict id =>
    obtain ⟨-, rfl⟩ := h
    rfl

/-- The response pump forwards no request, so it does not show in the request pump's view. -/
theorem seen_request {o : Op} {d : Answering} {c c' : Conn} {a : o.Ans} (ha : response_protocol.allow o d)
    (h : serves .response o c a c') : c'.seen .request = c.seen .request := by
  cases o with
  | set_carry carry =>
    obtain rfl := h
    simp [Conn.seen]
  | write_all site buf =>
    obtain rfl := h
    simp [Conn.seen, forwarded_append]
  | send block m => exact ha.elim
  | recv head =>
    rcases h with ⟨m, q, -, -, rfl⟩ | ⟨-, rfl⟩
    · simp [Conn.seen, forwarded_append]
    · rfl
  | send_verdict id accepted =>
    obtain rfl := h
    rfl
  | get_carry | read max | oneshot | verdict id =>
    obtain ⟨-, rfl⟩ := h
    rfl

/-! ## Chunks of a forwarded body -/

/-- The chunk-size lines of a chunked body, as the pump frames it. -/
def chunk_lines (s : Bytes) : List Bytes :=
  match _h : next_line s with
  | none => []
  | some (line, r) =>
    match chunk_size (line ++ CRLF) with
    | .error _ => [line]
    | .ok size => if size = 0 then [line] else line :: chunk_lines (r.drop (size + 2))
termination_by s.length
decreasing_by
  have := next_line_length _h
  rw [List.length_drop]
  omega

/-- The pump has read a size in the line. -/
def Sized (line : Bytes) : Prop := ∃ size, chunk_size (line ++ CRLF) = .ok size

theorem cut_line_plain (hl : Plain l) (t : Bytes) : cut_line (l ++ CRLF ++ t) = .ok (l ++ CRLF, t) := by
  rw [cut_line, next_line_eq_some.2 ⟨hl, rfl⟩]

/-- In a body that is framed to its end, every chunk has a size. -/
theorem sized_of_cut {s : Bytes} (h : s <+: (cut_chunked s).body) : ∀ l ∈ chunk_lines s, Sized l := by
  fun_induction chunk_lines s with
  | case1 => nofun
  | case2 s line r hn e hsize =>
    obtain ⟨hl, rfl⟩ := next_line_eq_some.1 hn
    rw [cut_chunked_line (cut_line_plain hl r), hsize] at h
    simp [CRLF] at h
  | case3 s line r hn hsize =>
    rw [List.forall_mem_singleton]
    exact ⟨0, hsize⟩
  | case4 s line r hn size hsize h0 ih =>
    refine List.forall_mem_cons.2 ⟨⟨size, hsize⟩, ih ?_⟩
    obtain ⟨hl, rfl⟩ := next_line_eq_some.1 hn
    rw [cut_chunked_line (cut_line_plain hl r), hsize] at h
    dsimp only at h
    rw [if_neg h0] at h
    -- nothing is left after the data, or the chunk ends with its CRLF
    have hend : line ++ CRLF ++ r <+: line ++ CRLF ++ r.take size → r.drop (size + 2) = [] := fun hpre =>
      List.drop_eq_nil_of_le (by have := hpre.length_le; simp at this; omega)
    split_ifs at h with hlen
    · rw [List.drop_eq_nil_of_le (by omega)]
      exact List.nil_prefix
    cases hc : cut_line (r.drop size) with
    | error e =>
      rw [hc] at h
      rw [hend h]
      exact List.nil_prefix
    | ok c =>
      obtain ⟨crlf, r'⟩ := c
      rw [hc] at h
      dsimp only at h
      split_ifs at h with hcr
      · rw [hend h]
        exact List.nil_prefix
      · obtain rfl : crlf = CRLF := not_not.1 hcr
        have hr := (cut_line_ok hc).1
        have hdrop : r.drop (size + 2) = r' := by
          rw [← List.drop_drop, hr]
          rfl
        rw [hdrop]
        nth_rewrite 1 [← List.take_append_drop size r] at h
        rw [hr, Cut.after, List.append_assoc, List.append_assoc, List.append_assoc, List.append_assoc] at h
        simpa using h

/-! ## What is written of a body -/

/-- After the bytes `b` of what `k` cuts, `k'` cuts the rest. -/
def Leads (k : Bytes → Cut) (b : Bytes) (k' : Bytes → Cut) : Prop := ∃ ls, ∀ t, k (b ++ t) = (k' t).after b ls

/-- `n` bytes of data, and what `k` cuts after them. -/
def in_data (n : Nat) (k : Bytes → Cut) (t : Bytes) : Cut :=
  if t.length < n then ⟨t, [], .error closed_mid_body⟩ else (k (t.drop n)).after (t.take n) []

/-- The CRLF after the data of a chunk, and the chunks after it. -/
def in_crlf (t : Bytes) : Cut :=
  match cut_line t with
  | .error e => ⟨[], [], .error e⟩
  | .ok (crlf, r) =>
    if crlf ≠ CRLF then ⟨[], [crlf], .error (bad "missing CRLF after chunk data")⟩
    else (cut_chunked r).after crlf [crlf]

theorem Leads.refl (k : Bytes → Cut) : Leads k [] k := ⟨[], fun _ => rfl⟩

theorem Leads.trans {k' k'' : Bytes → Cut} {b b' : Bytes} (h : Leads k b k') (h' : Leads k' b' k'') :
    Leads k (b ++ b') k'' := by
  obtain ⟨ls, h⟩ := h
  obtain ⟨ls', h'⟩ := h'
  refine ⟨ls ++ ls', fun t => ?_⟩
  rw [List.append_assoc, h, h']
  simp [Cut.after]

theorem Leads.isPrefix {k' : Bytes → Cut} {b : Bytes} (h : Leads k b k') (t : Bytes) : b <+: (k (b ++ t)).body := by
  obtain ⟨ls, h⟩ := h
  rw [h]
  exact List.prefix_append _ _

theorem leads_line (hl : Plain l) {size : Nat} (hsize : chunk_size (l ++ CRLF) = .ok size) :
    Leads cut_chunked (l ++ CRLF) (if size = 0 then cut_trailers else in_data size in_crlf) := by
  refine ⟨[l ++ CRLF], fun t => ?_⟩
  rw [cut_chunked_line (cut_line_plain hl t), hsize]
  dsimp only
  split_ifs with h0 hlen
  · rfl
  · rw [in_data, if_pos hlen]
    rfl
  · rw [in_data, if_neg hlen, in_crlf]
    cases cut_line (t.drop size) with
    | error e => simp [Cut.after]
    | ok c =>
      dsimp only
      split_ifs <;> simp [Cut.after]

theorem in_data_zero (k : Bytes → Cut) : in_data 0 k = k := by
  funext t
  simp [in_data, Cut.after]

theorem leads_data (hlen : buf.length ≤ n) (k : Bytes → Cut) :
    Leads (in_data n k) buf (in_data (n - buf.length) k) := by
  refine ⟨[], fun t => ?_⟩
  unfold in_data
  rw [List.length_append]
  split_ifs with h h' h'
  · rfl
  · omega
  · omega
  · rw [List.drop_append, List.take_append, List.drop_eq_nil_of_le hlen, List.take_of_length_le hlen]
    simp [Cut.after]

theorem leads_crlf : Leads in_crlf CRLF cut_chunked := by
  refine ⟨[CRLF], fun t => ?_⟩
  rw [in_crlf, show CRLF ++ t = [] ++ CRLF ++ t from rfl, cut_line_plain (by decide)]
  rfl

theorem leads_trailer (hl : Plain l) :
    Leads cut_trailers (l ++ CRLF) (if l ++ CRLF = CRLF then cut_body .None else cut_trailers) := by
  refine ⟨[l ++ CRLF], fun t => ?_⟩
  rw [cut_trailers_line (cut_line_plain hl t)]
  split_ifs with h
  · rw [h]
    rfl
  · rfl

theorem cut_body_length (n : Nat) : cut_body (.Length n) = in_data n (cut_body .None) := by
  funext t
  simp only [cut_body, in_data, Cut.after, List.append_nil]

/-! ## What holds at every moment -/

def MAX_CARRY : Nat := MAX_HEADER_SIZE + 4096

/-- The bytes are of a body framed in this way, whatever follows them. -/
def Within (body : RequestBody) (b : Bytes) : Prop := ∀ t, b <+: (cut_body body (b ++ t)).body

/-- A request the pump has framed: its head, and what is forwarded of its body. -/
structure Framed (rewrites : List HeaderRewrite) (r : Bytes × Bytes) : Prop where
  head : ∃ out, rewrite_request_head r.1 rewrites = .ok out
  body : ∃ body, framed_body r.1 = .ok body ∧ Within body r.2

theorem Framed.chunks {rewrites : List HeaderRewrite} {r : Bytes × Bytes} (h : Framed rewrites r)
    (hc : framed_body r.1 = .ok .Chunked) : ∀ l ∈ chunk_lines r.2, Sized l := by
  obtain ⟨body, hbody, hpre⟩ := h.body
  obtain rfl : body = .Chunked := Except.ok.inj (hbody.symm.trans hc)
  have hall := hpre []
  rw [List.append_nil] at hall
  exact sized_of_cut hall

structure Kept (rewrites : List HeaderRewrite) (v : View) : Prop where
  carry : v.carry.length ≤ MAX_CARRY
  framed : ∀ r ∈ v.forwarded, Framed rewrites r

/-- The body of the last request has been forwarded up to where `k` goes on. -/
def Expects (k : Bytes → Cut) (v : View) : Prop :=
  ∀ r ∈ v.forwarded.getLast?, ∀ body, framed_body r.1 = .ok body → Leads (cut_body body) r.2 k

def View.blocks (v : View) : List Bytes := v.forwarded.map (·.1)

theorem blocks_extend (v : View) (buf : Bytes) :
    View.blocks { v with forwarded := extend v.forwarded buf } = v.blocks := by
  unfold View.blocks
  rcases List.eq_nil_or_concat v.forwarded with h | ⟨rs, ⟨block, b⟩, h⟩
  · simp [h, extend_nil]
  · simp [h, extend_concat]

theorem Kept.drop_carry {rewrites : List HeaderRewrite} {v : View} (h : Kept rewrites v) (n : Nat) :
    (v.carry.drop n).length ≤ MAX_CARRY := by
  rw [List.length_drop]
  exact (Nat.sub_le _ _).trans h.carry

theorem Kept.with_carry {rewrites : List HeaderRewrite} {v : View} (h : Kept rewrites v) {carry : Bytes}
    (hlen : carry.length ≤ MAX_CARRY) : Kept rewrites { v with carry := carry } := ⟨hlen, h.framed⟩

/-- The body of the last of the requests `bs` is being forwarded. -/
structure Copying (rewrites : List HeaderRewrite) (bs : List Bytes) (k : Bytes → Cut) (v : View) : Prop where
  kept : Kept rewrites v
  blocks : v.blocks = bs
  expects : Expects k v

/-! ## Operations -/

section Programs

variable {rewrites : List HeaderRewrite} {side : Side} {v : View} {bs : List Bytes}

variable (inner fuel : Nat)

theorem Copying.same {v' : View} (h : Copying rewrites bs k v) (h' : Kept rewrites v')
    (hf : v'.forwarded = v.forwarded) : Copying rewrites bs k v' := by
  refine ⟨h', ?_, ?_⟩
  · rw [View.blocks, hf]
    exact h.blocks
  · rw [Expects, hf]
    exact h.expects

theorem Copying.extend {k' : Bytes → Cut} (h : Copying rewrites bs k v) (hk : Leads k buf k') :
    Copying rewrites bs k' { v with forwarded := extend v.forwarded buf } := by
  have hblocks := (blocks_extend v buf).trans h.blocks
  rcases List.eq_nil_or_concat v.forwarded with hv | ⟨rs, ⟨block, b⟩, hv⟩
  · rw [hv, extend_nil] at hblocks ⊢
    exact ⟨⟨h.kept.carry, nofun⟩, hblocks, nofun⟩
  rw [List.concat_eq_append] at hv
  rw [hv, extend_concat] at hblocks ⊢
  have hold := h.kept.framed (block, b) (by simp [hv])
  have hleads (body : RequestBody) (hb : framed_body block = .ok body) : Leads (cut_body body) (b ++ buf) k' :=
    (h.expects (block, b) (by simp [hv]) body hb).trans hk
  refine ⟨⟨h.kept.carry, fun r hr => ?_⟩, hblocks, fun r hr body hbody => ?_⟩
  · rcases List.mem_append.1 hr with hr | hr
    · exact h.kept.framed r (by simp [hv, hr])
    · obtain rfl := List.mem_singleton.1 hr
      obtain ⟨body, hbody, -⟩ := hold.body
      exact ⟨hold.head, body, hbody, (hleads body hbody).isPrefix⟩
  · rw [List.getLast?_concat, Option.mem_some_iff] at hr
    subst hr
    exact hleads body hbody

theorem always_get_carry (h : Kept rewrites v) :
    Always (sees side) (Kept rewrites) (fun a v' => a = v.carry ∧ v' = v) get_carry v := by
  rintro a v' ⟨rfl, rfl⟩
  exact ⟨h, rfl, rfl⟩

theorem always_set_carry (h : Kept rewrites v) {carry : Bytes} (hlen : carry.length ≤ MAX_CARRY) :
    Always (sees side) (Kept rewrites) (fun _ v' => v' = { v with carry := carry }) (set_carry carry) v := by
  rintro a v' rfl
  exact ⟨h.with_carry hlen, rfl⟩

theorem always_lift {α : Type} (r : Except IoError α) :
    Always (sees side) (Kept rewrites) (fun a v' => r = .ok a ∧ v' = v) (lift r) v := by
  cases r with
  | ok a => exact ⟨rfl, rfl⟩
  | error e => trivial

theorem always_read (h : Kept rewrites v) (max : Nat) :
    Always (sees side) (Kept rewrites) (fun b v' => b.length ≤ max ∧ v' = v) (read max) v := by
  refine Always.bind (S := fun a v' => (∀ b, a = .ok b → b.length ≤ max) ∧ v' = v) ?_ fun r v' ⟨hlen, hv⟩ => ?_
  · rintro a v' ⟨hlen, rfl⟩
    exact ⟨h, hlen, rfl⟩
  · cases r with
    | ok b => exact ⟨hlen b rfl, hv⟩
    | error e => trivial

theorem always_write_head (h : Kept rewrites v) {site : Site} (hsite : site ≠ .body) (buf : Bytes) :
    Always (sees side) (Kept rewrites) (fun _ v' => v' = v) (write_all site buf) v := by
  refine Always.bind (S := fun _ v' => v' = v) ?_ fun r v' hv => ?_
  · intro a v' hs
    obtain rfl : v' = v := by
      cases site with
      | body => exact absurd rfl hsite
      | head => exact hs
      | raw => exact hs
    exact ⟨h, rfl⟩
  · cases r with
    | ok => exact hv
    | error e => trivial

theorem always_write_body {k' : Bytes → Cut} (h : Copying rewrites bs k v) (hk : Leads k buf k') :
    Always (sees side) (Kept rewrites) (fun _ v' => Copying rewrites bs k' v') (write_all .body buf) v := by
  have h' := h.extend hk
  refine Always.bind (S := fun _ v' => v' = { v with forwarded := extend v.forwarded buf }) ?_ fun r v' hv => ?_
  · rintro a v' rfl
    exact ⟨h'.kept, rfl⟩
  · cases r with
    | ok =>
      subst hv
      exact h'
    | error e => trivial

/-! ## Reading -/

/-- A bounded read that leaves the buffer within its size. -/
structure Until.Fits (u : Until) : Prop where
  pat_ne : u.pat ≠ []
  room : u.limit + u.buf ≤ MAX_CARRY
  eof : ∀ carry n, u.at_eof carry ≠ .ok (some n)

theorem header_end_fits : header_end.Fits := by
  refine ⟨by simp [header_end, CRLFCRLF], by decide, fun carry n => ?_⟩
  simp only [header_end]
  split <;> simp

theorem line_end_fits : line_end.Fits := ⟨by simp [line_end, CRLF], by decide, by simp [line_end]⟩

/-- The offset a bounded read returns is the end of the first match in the buffer. -/
theorem always_read_until {u : Until} (hu : u.Fits) (fuel : Nat) {scanned : Nat} (h : Kept rewrites v)
    (hs : CanSkip u.pat v.carry scanned) :
    Always (sees side) (Kept rewrites) (fun r v' => Kept rewrites v' ∧ v'.forwarded = v.forwarded ∧
      ∀ n, r = some n → ∃ m, position u.pat v'.carry = some m ∧ n = m + u.pat.length)
        (read_until u fuel scanned) v := by
  induction fuel generalizing v scanned with
  | zero => trivial
  | succ fuel ih =>
    refine Always.bind (always_get_carry h) ?_
    rintro _ v ⟨rfl, rfl⟩
    cases hd : position u.pat (v.carry.drop scanned) with
    | some rel =>
      refine ⟨h, rfl, ?_⟩
      rintro n ⟨⟩
      exact ⟨scanned + rel, by rw [hs, hd, Option.map_some, Nat.add_comm], rfl⟩
    | none =>
      have hc : position u.pat v.carry = none := by rw [hs, hd, Option.map_none]
      dsimp only
      split
      · trivial
      · rename_i hlim
        refine Always.bind (always_read h u.buf) ?_
        rintro tmp v ⟨hlen, rfl⟩
        split
        · refine (always_lift _).imp (fun _ h => h) ?_
          rintro r _ ⟨hr, rfl⟩
          exact ⟨h, rfl, fun n hn => absurd (hn ▸ hr) (hu.eof _ n)⟩
        · have hroom := hu.room
          have hnew : (v.carry ++ tmp).length ≤ MAX_CARRY := by
            rw [List.length_append]
            omega
          refine Always.bind (always_set_carry h hnew) ?_
          rintro _ _ rfl
          exact ih (h.with_carry hnew) (canSkip_append hu.pat_ne hc tmp)

theorem always_control_line (h : Kept rewrites v) :
    Always (sees side) (Kept rewrites) (fun line v' => Kept rewrites v' ∧ v'.forwarded = v.forwarded ∧
      ∃ l, Plain l ∧ line = l ++ CRLF) (read_control_line fuel) v := by
  refine Always.bind (always_read_until line_end_fits fuel h (canSkip_zero _ _)) ?_
  rintro (_ | e) v₁ ⟨h₁, hf₁, hpos⟩
  · trivial
  · obtain ⟨m, hm, rfl⟩ := hpos e rfl
    refine Always.bind (always_get_carry h₁) ?_
    rintro _ v₁ ⟨rfl, rfl⟩
    have hle := h₁.drop_carry (m + line_end.pat.length)
    refine Always.bind (always_set_carry h₁ hle) ?_
    rintro _ _ rfl
    have hline := (next_line_eq_some.1 (show next_line v₁.carry = some (v₁.carry.take m, v₁.carry.drop (m + 2)) by
      rw [next_line, show position CRLF v₁.carry = some m from hm, Option.map_some])).1
    have hcut := cut_line_of_position hm
    refine ⟨h₁.with_carry hle, hf₁, v₁.carry.take m, hline, ?_⟩
    rw [cut_line, next_line, show position CRLF v₁.carry = some m from hm] at hcut
    simp only [Option.map_some, Except.ok.injEq, Prod.mk.injEq, and_true] at hcut
    exact hcut.symm

/-! ## Copying -/

theorem always_copy_exact (h : Copying rewrites bs (in_data n k) v) :
    Always (sees side) (Kept rewrites) (fun _ v' => Copying rewrites bs k v') (copy_exact fuel n) v := by
  induction fuel generalizing v n with
  | zero => trivial
  | succ fuel ih =>
    rw [copy_exact]
    split
    · rename_i h0
      rw [h0, in_data_zero] at h
      exact h
    · refine Always.bind (always_read h.kept _) ?_
      rintro buf v ⟨hlen, rfl⟩
      split
      · trivial
      · exact Always.bind (always_write_body h (leads_data (by omega) k)) fun _ _ h => ih h

theorem always_copy_body (h : Copying rewrites bs (in_data n k) v) :
    Always (sees side) (Kept rewrites) (fun _ v' => Copying rewrites bs k v') (copy_body fuel n) v := by
  refine Always.bind (always_get_carry h.kept) ?_
  rintro _ v ⟨rfl, rfl⟩
  have hbuf : (v.carry.take (min v.carry.length n)).length = min v.carry.length n := by
    rw [List.length_take]
    omega
  have hle := h.kept.drop_carry (min v.carry.length n)
  refine Always.bind (always_write_body h (leads_data (by omega) k)) fun _ v₁ h₁ => ?_
  refine Always.bind (always_set_carry h₁.kept hle) ?_
  rintro _ _ rfl
  rw [hbuf] at h₁
  have h₂ := h₁.same (h₁.kept.with_carry hle) rfl
  dsimp only
  split
  · exact always_copy_exact fuel h₂
  · rw [show n - min v.carry.length n = 0 by omega, in_data_zero] at h₂
    exact h₂

theorem always_trailers (h : Copying rewrites bs cut_trailers v) :
    Always (sees side) (Kept rewrites) (fun _ v' => Copying rewrites bs (cut_body .None) v')
      (copy_trailers inner fuel) v := by
  induction fuel generalizing v with
  | zero => trivial
  | succ fuel ih =>
    refine Always.bind (always_control_line inner h.kept) ?_
    rintro _ v₁ ⟨h₁, hf₁, l, hl, rfl⟩
    refine Always.bind (always_write_body (h.same h₁ hf₁) (leads_trailer hl)) fun _ v₂ h₂ => ?_
    split
    · rename_i hline
      rw [if_pos hline] at h₂
      exact h₂
    · rename_i hline
      rw [if_neg hline] at h₂
      exact ih h₂

theorem always_chunked (h : Copying rewrites bs cut_chunked v) :
    Always (sees side) (Kept rewrites) (fun _ v' => Copying rewrites bs (cut_body .None) v')
      (copy_chunked_body inner fuel) v := by
  induction fuel generalizing v with
  | zero => trivial
  | succ fuel ih =>
    refine Always.bind (always_control_line inner h.kept) ?_
    rintro _ v₁ ⟨h₁, hf₁, l, hl, rfl⟩
    refine Always.bind (always_lift _) ?_
    rintro size v₁ ⟨hsize, rfl⟩
    refine Always.bind (always_write_body (h.same h₁ hf₁) (leads_line hl hsize)) fun _ v₂ h₂ => ?_
    split
    · rename_i h0
      rw [if_pos h0] at h₂
      exact always_trailers inner inner h₂
    · rename_i h0
      rw [if_neg h0] at h₂
      refine Always.bind (always_copy_body inner h₂) fun _ v₃ h₃ => ?_
      refine Always.bind (always_control_line inner h₃.kept) ?_
      rintro crlf v₄ ⟨h₄, hf₄, -⟩
      split
      · trivial
      · rename_i hcr
        obtain rfl : crlf = CRLF := not_not.1 hcr
        exact Always.bind (always_write_body (h₃.same h₄ hf₄) leads_crlf) fun _ _ h => ih h

theorem always_copy (h : Kept rewrites v) :
    Always (sees side) (Kept rewrites) (fun _ _ => True) (copy fuel) v := by
  induction fuel generalizing v with
  | zero => trivial
  | succ fuel ih =>
    refine Always.bind (always_read h _) ?_
    rintro buf v ⟨-, rfl⟩
    split
    · trivial
    · refine Always.bind (always_write_head h (by decide) buf) ?_
      rintro _ _ rfl
      exact ih h

theorem always_pass_through (h : Kept rewrites v) :
    Always (sees side) (Kept rewrites) (fun _ _ => True) (pass_through fuel) v := by
  refine Always.bind (always_get_carry h) ?_
  rintro _ v ⟨rfl, rfl⟩
  refine Always.bind (always_write_head h (by decide) _) ?_
  rintro _ _ rfl
  refine Always.bind (always_set_carry h (Nat.zero_le _)) ?_
  rintro _ _ rfl
  exact always_copy fuel (h.with_carry (Nat.zero_le _))

/-! ## The pumps -/

theorem always_request_body {block : Bytes} {rs : List (Bytes × Bytes)} {body : RequestBody} (h : Kept rewrites v)
    (hv : v.forwarded = rs ++ [(block, [])]) (hbody : framed_body block = .ok body) :
    Always (sees side) (Kept rewrites) (fun _ v' => Kept rewrites v') (copy_request_body inner body) v := by
  -- nothing is forwarded yet of the body
  have hc : Copying rewrites v.blocks (cut_body body) v := by
    refine ⟨h, rfl, fun r hr body' hbody' => ?_⟩
    rw [hv, List.getLast?_concat, Option.mem_some_iff] at hr
    subst hr
    rw [← Except.ok.inj (hbody.symm.trans hbody')]
    exact .refl _
  cases body with
  | None => exact h
  | Length n =>
    rw [cut_body_length] at hc
    exact (always_copy_body inner hc).imp (fun _ h => h) fun _ _ h => h.kept
  | Chunked => exact (always_chunked inner inner hc).imp (fun _ h => h) fun _ _ h => h.kept

theorem always_verdict_channel (candidate : Bool) (h : Kept rewrites v) :
    Always (sees side) (Kept rewrites) (fun _ v' => v' = v) (verdict_channel candidate) v := by
  cases candidate with
  | false => exact rfl
  | true =>
    rintro a v' rfl
    exact ⟨h, rfl⟩

theorem always_request (h : Kept rewrites v) :
    Always (sees .request) (Kept rewrites) (fun _ _ => True) (rewrite_request_stream rewrites inner fuel) v := by
  induction fuel generalizing v with
  | zero => trivial
  | succ fuel ih =>
    refine Always.bind (always_read_until header_end_fits inner h (canSkip_zero _ _)) ?_
    rintro (_ | e) v₁ ⟨h₁, -, -⟩
    · trivial
    refine Always.bind (always_get_carry h₁) ?_
    rintro _ v₁ ⟨rfl, rfl⟩
    dsimp only
    generalize v₁.carry.take e = block
    refine Always.bind (always_lift _) ?_
    rintro head v₁ ⟨hhead, rfl⟩
    refine Always.bind (always_lift _) ?_
    rintro body v₁ ⟨hbody, rfl⟩
    refine Always.bind (always_verdict_channel _ h₁) ?_
    rintro verdict_rx v₁ rfl
    -- the request is forwarded from here on, with its head rewritten and its body framed
    have h₂ : Kept rewrites { v₁ with forwarded := v₁.forwarded ++ [(block, [])] } := by
      refine ⟨h₁.carry, fun r hr => ?_⟩
      rcases List.mem_append.1 hr with hr | hr
      · exact h₁.framed r hr
      · rw [List.mem_singleton] at hr
        subst hr
        exact ⟨⟨head, hhead⟩, body, hbody, (Leads.refl _).isPrefix⟩
    refine Always.bind (S := fun sent v' => sent = true → v' = { v₁ with forwarded := v₁.forwarded ++ [(block, [])] })
      ?_ ?_
    · rintro sent v' (⟨-, rfl, rfl⟩ | ⟨hside | rfl, rfl⟩)
      · exact ⟨h₂, fun _ => rfl⟩
      · cases hside
      · exact ⟨h₁, nofun⟩
    rintro (_ | _) v₂ hv₂
    · trivial
    obtain rfl := hv₂ rfl
    refine Always.bind (always_write_head h₂ (by decide) head) ?_
    rintro _ v₂ rfl
    refine Always.bind (always_get_carry h₂) ?_
    rintro _ v₂ ⟨rfl, rfl⟩
    have hle := h₁.drop_carry e
    refine Always.bind (always_set_carry h₂ hle) ?_
    rintro _ v₃ rfl
    refine Always.bind (always_request_body inner (h₂.with_carry hle) rfl hbody) fun _ v₄ h₄ => ?_
    cases verdict_rx with
    | none => exact ih h₄
    | some id =>
      refine Always.bind (S := fun _ v' => Kept rewrites v') ?_ fun b v₅ h₅ => ?_
      · rintro b v' rfl
        exact ⟨h₄, h₄⟩
      · rcases b with _ | _ | _
        · trivial
        · exact ih h₅
        · exact always_pass_through inner h₅

theorem copying_none (h : Kept rewrites v) (hv : v.blocks = []) : Copying rewrites [] k v := by
  refine ⟨h, hv, fun r hr => ?_⟩
  rw [List.map_eq_nil_iff.1 hv] at hr
  cases hr

theorem always_report_verdict (m : RequestMeta) (status : Nat) (h : Kept rewrites v) :
    Always (sees side) (Kept rewrites) (fun _ v' => v' = v) (report_verdict m status) v := by
  unfold report_verdict
  split
  · rintro a v' rfl
    exact ⟨h, rfl⟩
  · split
    · trivial
    · exact rfl

theorem always_response (h : Kept rewrites v) (hv : v.blocks = []) :
    Always (sees .response) (Kept rewrites) (fun _ _ => True) (forward_response_stream inner fuel) v := by
  induction fuel generalizing v with
  | zero => trivial
  | succ fuel ih =>
    refine Always.bind (always_read_until header_end_fits inner h (canSkip_zero _ _)) ?_
    rintro (_ | e) v₁ ⟨h₁, hf₁, -⟩
    · trivial
    have hb₁ : v₁.blocks = [] := by
      rw [View.blocks, hf₁]
      exact hv
    have hle := h₁.drop_carry e
    refine Always.bind (always_get_carry h₁) ?_
    rintro _ v₁ ⟨rfl, rfl⟩
    dsimp only
    generalize v₁.carry.take e = head
    cases parse_status head with
    | none => trivial
    | some status =>
      dsimp only
      split
      · refine Always.bind (always_write_head h₁ (by decide) _) ?_
        rintro _ v₁ rfl
        refine Always.bind (always_get_carry h₁) ?_
        rintro _ v₁ ⟨rfl, rfl⟩
        refine Always.bind (always_set_carry h₁ hle) ?_
        rintro _ _ rfl
        exact ih (h₁.with_carry hle) hb₁
      · refine Always.bind (S := fun _ v' => v' = v₁) ?_ ?_
        · rintro a v' rfl
          exact ⟨h₁, rfl⟩
        rintro (_ | m) v₁ rfl
        · trivial
        refine Always.bind (always_report_verdict m status h₁) ?_
        rintro _ v₁ rfl
        refine Always.bind (always_write_head h₁ (by decide) _) ?_
        rintro _ v₁ rfl
        refine Always.bind (always_get_carry h₁) ?_
        rintro _ v₁ ⟨rfl, rfl⟩
        refine Always.bind (always_set_carry h₁ hle) ?_
        rintro _ v₂ rfl
        have h₂ := h₁.with_carry hle
        have hb₂ : View.blocks { v₁ with carry := v₁.carry.drop e } = [] := hb₁
        split
        · exact always_pass_through inner h₂
        · split
          · exact ih h₂ hb₂
          · refine Always.bind (always_copy_body inner (k := cut_body .None) (copying_none h₂ hb₂)) fun _ v₃ h₃ => ?_
            exact ih h₃.kept h₃.blocks
          · refine Always.bind (always_chunked inner inner (copying_none h₂ hb₂)) fun _ v₃ h₃ => ?_
            exact ih h₃.kept h₃.blocks
          · exact always_pass_through inner h₂

end Programs

/-! ## Both pumps at once -/

theorem kept_init (rewrites : List HeaderRewrite) (side : Side) : Kept rewrites (Conn.init.seen side) := by
  cases side <;> exact ⟨Nat.zero_le _, by simp [Conn.seen, Conn.init, forwarded]⟩

/-- What each pump keeps on its own, it keeps beside the other. -/
theorem interleaved_kept {rewrites : List HeaderRewrite} {inner fuel inner' fuel' : Nat} {p q : Pump Unit} {c : Conn}
    (h : Interleaved (serves .request) (serves .response) (rewrite_request_stream rewrites inner fuel)
      (forward_response_stream inner' fuel') Conn.init p q c) (side : Side) : Kept rewrites (c.seen side) := by
  cases side with
  | request =>
    have hreached := h.left_alone (Conn.seen · .request) (response_obeys inner' fuel' none) sees_of_serves
      fun _ _ _ _ _ => seen_request
    exact ((always_request inner fuel (kept_init rewrites .request)).reached (kept_init rewrites .request) hreached).1
  | response =>
    have hreached := h.symm.left_alone (Conn.seen · .response)
      (request_obeys rewrites inner fuel (g := ⟨[], none, false⟩) rfl)
      sees_of_serves
      fun _ _ _ _ _ => seen_response
    exact ((always_response inner' fuel' (kept_init rewrites .response) rfl).reached (kept_init rewrites .response)
      hreached).1

theorem forwarded_blocks (log : List Event) : (forwarded log).map (·.1) = (requests log).map (·.1) := by
  induction log using List.reverseRecOn with
  | nil => rfl
  | append_singleton log e ih =>
    rw [forwarded_append, requests, List.filterMap_append, List.map_append, ← requests, ← ih]
    cases e with
    | sent block m => simp
    | answered head m => simp
    | wrote side site buf =>
      cases side <;> cases site <;> try simp
      exact blocks_extend ⟨[], forwarded log⟩ buf

/-- **Raw passthrough is gated on the upstream's acceptance.** However the two pumps
are interleaved and whatever arrives from both ends, what the request pump writes
to the upstream is bytes passed through as they are, the rewritten head of its last
request, or more of that request's body as its framing delimits it. The first comes only
after the i-th final response, to the last and i-th request forwarded, was 2xx to a CONNECT
or 101 to an Upgrade. -/
theorem passthrough_gated {rewrites : List HeaderRewrite} {inner fuel inner' fuel' : Nat} {p q : Pump Unit} {c : Conn}
    (h : Interleaved (serves .request) (serves .response) (rewrite_request_stream rewrites inner fuel)
      (forward_response_stream inner' fuel') Conn.init p q c)
    {log later : List Event} {site : Site} {buf : Bytes} (hlog : c.log = log ++ .wrote .request site buf :: later) :
    (site = .raw → Accepted log) ∧ (site = .head → ∃ block m, (requests log).getLast? = some (block, m) ∧
      rewrite_request_head block rewrites = .ok buf) ∧
    (site = .body → ∃ block m data body, (requests log).getLast? = some (block, m) ∧
      (forwarded log).getLast? = some (block, data) ∧ framed_body block = .ok body ∧ Within body (data ++ buf)) := by
  have hupto : log ++ [.wrote .request site buf] <+: c.log := ⟨later, by rw [hlog, List.append_assoc]; rfl⟩
  obtain ⟨p', q', c', h', hlog'⟩ := interleaved_log h hupto
  have hgate := interleaved_gate h' hlog'
  refine ⟨?_, ?_, ?_⟩
  · rintro rfl
    exact hgate
  · rintro rfl
    exact hgate
  · rintro rfl
    obtain ⟨rs, ⟨block, m⟩, hlast⟩ := (List.eq_nil_or_concat (requests log)).resolve_left hgate
    obtain ⟨fs, ⟨block', data⟩, hf, hfs, hb⟩ : ∃ fs x, forwarded log = fs ++ [x] ∧ fs.map (·.1) = rs.map (·.1) ∧
        x.1 = block := by
      have hmap := forwarded_blocks log
      rw [hlast, List.concat_eq_append, List.map_append] at hmap
      obtain ⟨fs, xs, hf, hfs, hxs⟩ := List.map_eq_append_iff.1 hmap
      obtain ⟨x, rfl, hx⟩ := List.map_eq_singleton_iff.1 hxs
      exact ⟨fs, x, hf, hfs, hx⟩
    obtain rfl : block' = block := hb
    have hframed := (interleaved_kept h' .request).framed (block', data ++ buf) (by
      simp [Conn.seen, hlog', forwarded_append, hf, extend_concat])
    obtain ⟨body, hbody, hwithin⟩ := hframed.body
    exact ⟨block', m, data, body, by simp [hlast], by simp [hf], hbody, hwithin⟩

/-- A request with a body, and a WebSocket upgrade the upstream accepts. -/
def upgradePlay : Play where
  request := rewrite_request_stream [] 10 10
  response := forward_response_stream 10 10
  conn := Conn.init
  client := [bytes "POST / HTTP/1.1\r\nContent-Length: 2\r\n\r\nhi",
    bytes "GET / HTTP/1.1\r\nConnection: Upgrade\r\nUpgrade: websocket\r\n\r\n", bytes "frame"]
  upstream := [bytes "HTTP/1.1 204 No Content\r\n\r\nHTTP/1.1 101 Switching Protocols\r\n\r\n"]

/-- The request pump up to the verdict, then the response pump, then the request pump again. -/
def upgradeSchedule : List Side :=
  List.replicate 30 .request ++ List.replicate 30 .response ++ List.replicate 9 .request

theorem passthrough_after_switching :
    let log := (upgradePlay.run upgradeSchedule).conn.log
    log[2]? = some (.wrote .request .body (bytes "hi")) ∧ Within (.Length 2) (bytes "hi") ∧
      log[11]? = some (.wrote .request .raw (bytes "frame")) ∧ Accepted (log.take 11) := by
  have hrun : Interleaved (serves .request) (serves .response) (rewrite_request_stream [] 10 10)
      (forward_response_stream 10 10) Conn.init (upgradePlay.run upgradeSchedule).request
      (upgradePlay.run upgradeSchedule).response (upgradePlay.run upgradeSchedule).conn :=
    run_interleaved (x := upgradePlay) .start upgradeSchedule
  have hbody : (upgradePlay.run upgradeSchedule).conn.log = (upgradePlay.run upgradeSchedule).conn.log.take 2 ++
      .wrote .request .body (bytes "hi") :: (upgradePlay.run upgradeSchedule).conn.log.drop 3 := by decide +kernel
  have hraw : (upgradePlay.run upgradeSchedule).conn.log = (upgradePlay.run upgradeSchedule).conn.log.take 11 ++
      [.wrote .request .raw (bytes "frame")] := by decide +kernel
  refine ⟨by decide +kernel, ?_, by decide +kernel, (passthrough_gated hrun hraw).1 rfl⟩
  obtain ⟨block, m, data, body, -, hlast, hframed, hwithin⟩ := (passthrough_gated hrun hbody).2.2 rfl
  rw [show forwarded _ = [(bytes "POST / HTTP/1.1\r\nContent-Length: 2\r\n\r\n", [])] by decide +kernel] at hlast
  cases hlast
  rw [show framed_body _ = .ok (.Length 2) by decide +kernel] at hframed
  cases hframed
  exact hwithin

/-- **The buffers are bounded.** However the two pumps are interleaved and whatever arrives
from both ends, neither buffer ever holds more than a header block at its limit and one
read. -/
theorem carry_bounded {rewrites : List HeaderRewrite} {inner fuel inner' fuel' : Nat} {p q : Pump Unit} {c : Conn}
    (h : Interleaved (serves .request) (serves .response) (rewrite_request_stream rewrites inner fuel)
      (forward_response_stream inner' fuel') Conn.init p q c) (side : Side) : (c.carry side).length ≤ 65536 + 4096 := by
  have hkept := (interleaved_kept h side).carry
  cases side <;> exact hkept

/-- A run that has read a header and the start of what follows it. -/
theorem carry_bounded_upgrade : ((upgradePlay.run upgradeSchedule).conn.carry .request).length ≤ 65536 + 4096 :=
  carry_bounded (run_interleaved (x := upgradePlay) .start upgradeSchedule) .request

end Symphony.Http
