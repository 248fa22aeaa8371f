import Symphony.Http.Pump
/-!
# The tunnel switch

The two pumps of a connection, interleaved in any way. They share the queue of
request metadata and the verdict channels; what arrives from the client and from
the upstream, and every failure, is left open. The gate (`Gate`) says what the request
pump may write: it passes bytes through as they are only once the response to its last
request, the i-th final response to the i-th request, accepts the tunnel that request
asks for.
-/

namespace Symphony.Http

open Lib (Prog Protocol)
open Lib.Prog (Obeys Interleaved)

/-! ## The connection -/

/-- The pump that acts. -/
inductive Side where
  | request
  | response
  deriving DecidableEq, Repr

/-- What happened: a request handed to the response pump, a final response matched
with a request, or bytes written by a pump. -/
inductive Event where
  | sent (block : Bytes) (m : RequestMeta)
  | answered (head : Bytes) (m : RequestMeta)
  | wrote (side : Side) (site : Site) (buf : Bytes)
  deriving DecidableEq, Repr

/-- What the two pumps share, the buffer each owns, and what happened so far. -/
structure Conn where
  carry : Side → Bytes
  queue : List RequestMeta
  next_id : Nat
  decided : List (Nat × Bool)
  log : List Event

/-- `proxy_http1_rewriting` before the pumps start. -/
def Conn.init : Conn := ⟨fun _ => [], [], 0, [], []⟩

/-- How the connection can answer an operation. Any bytes may arrive, and anything
may fail; a failed write may have written something, so it counts. A verdict that
arrives is one that was sent, and what is received is the head of the queue. -/
def serves (side : Side) : (o : Op) → Conn → o.Ans → Conn → Prop
  | .get_carry, c, a, c' => a = c.carry side ∧ c' = c
  | .set_carry carry, c, _, c' => c' = { c with carry := Function.update c.carry side carry }
  | .read max, c, a, c' => (∀ b, a = .ok b → b.length ≤ max) ∧ c' = c
  | .write_all site buf, c, _, c' => c' = { c with log := c.log ++ [.wrote side site buf] }
  | .oneshot, c, a, c' => a = c.next_id ∧ c' = { c with next_id := c.next_id + 1 }
  | .send block m, c, a, c' =>
    (a = true ∧ c' = { c with queue := c.queue ++ [m], log := c.log ++ [.sent block m] }) ∨ (a = false ∧ c' = c)
  | .verdict id, c, a, c' => (∀ b, a = some b → (id, b) ∈ c.decided) ∧ c' = c
  | .recv head, c, a, c' =>
    (∃ m q, c.queue = m :: q ∧ a = some m ∧ c' = { c with queue := q, log := c.log ++ [.answered head m] }) ∨
      (a = none ∧ c' = c)
  | .send_verdict id accepted, c, _, c' => c' = { c with decided := c.decided ++ [(id, accepted)] }

/-- The requests forwarded, in order: header block and metadata. -/
def requests (log : List Event) : List (Bytes × RequestMeta) :=
  log.filterMap fun
    | .sent block m => some (block, m)
    | _ => none

/-- The final responses processed, in order: header block and the request it answers. -/
def responses (log : List Event) : List (Bytes × RequestMeta) :=
  log.filterMap fun
    | .answered head m => some (head, m)
    | _ => none

/-- The last request forwarded is the i-th, the i-th final response answers it, and
accepts what it asks for: 2xx for a CONNECT, 101 for an Upgrade. -/
def Accepted (log : List Event) : Prop :=
  ∃ i block head m status, (requests log).length = i + 1 ∧ (requests log)[i]? = some (block, m) ∧
    (responses log)[i]? = some (head, m) ∧ parse_status head = some status ∧ is_interim status = false ∧
    ((is_connect block = true ∧ 200 ≤ status ∧ status < 300) ∨
      (is_connect block = false ∧ is_upgrade block = true ∧ status = 101))

/-- When the request pump may write. -/
def Gate (rewrites : List HeaderRewrite) (log : List Event) : Site → Bytes → Prop
  | .head, buf => ∃ block m, (requests log).getLast? = some (block, m) ∧ rewrite_request_head block rewrites = .ok buf
  | .body, _ => requests log ≠ []
  | .raw, _ => Accepted log

/-! ## What each pump does -/

/-- The request pump's view: the requests it forwarded, a channel it has not handed
out yet, and whether the last request's verdict was an acceptance. -/
structure Asking where
  sent : List (Bytes × RequestMeta)
  channel : Option Nat
  granted : Bool

def request_protocol (rewrites : List HeaderRewrite) : Protocol Op Op.Ans Asking where
  allow
    | .get_carry, _ => True
    | .set_carry _, _ => True
    | .read _, _ => True
    | .write_all .head buf, g =>
      ∃ block m, g.sent.getLast? = some (block, m) ∧ rewrite_request_head block rewrites = .ok buf
    | .write_all .body _, g => g.sent ≠ []
    | .write_all .raw _, g => g.granted = true
    | .oneshot, _ => True
    | .send block m, g => g.granted = false ∧ m = meta_of block m.verdict ∧
      m.verdict.isSome = is_tunnel_candidate block ∧ (m.verdict.isSome → m.verdict = g.channel)
    | .verdict id, g => ∃ block m, g.sent.getLast? = some (block, m) ∧ m.verdict = some id
    | .recv _, _ => False
    | .send_verdict _ _, _ => False
  next
    | .oneshot, g, id => { g with channel := some id }
    | .send block m, g, true => { g with sent := g.sent ++ [(block, m)], channel := none }
    | .verdict _, g, some true => { g with granted := true }
    | _, g, _ => g

/-- The response pump's view: the response it is processing and the request it answers. -/
abbrev Answering := Option (Bytes × RequestMeta)

def response_protocol : Protocol Op Op.Ans Answering where
  allow
    | .recv head, _ => ∃ status, parse_status head = some status ∧ is_interim status = false
    | .send_verdict id accepted, d => ∃ head m status, d = some (head, m) ∧ m.verdict = some id ∧
      parse_status head = some status ∧ accepted = tunnel_established m status
    | .oneshot, _ => False
    | .send _ _, _ => False
    | .verdict _, _ => False
    | _, _ => True
  next
    | .recv head, _, some m => some (head, m)
    | _, d, _ => d

/-! ## Reading and copying is quiet -/

/-- Reads and buffer operations only, and body writes if `w` is set. -/
def quiet (w : Bool) : Protocol Op Op.Ans Unit where
  allow
    | .get_carry, _ => True
    | .set_carry _, _ => True
    | .read _, _ => True
    | .write_all .body _, _ => w = true
    | _, _ => False
  next _ _ _ := ()

def Quiet (w : Bool) {α : Type} (p : Pump α) : Prop := Obeys (quiet w) (fun _ _ => True) p ()

variable {α : Type} {site : Site} {buf : Bytes} {m : RequestMeta} {log : List Event} {side : Side}

section Quiet

variable {w : Bool}

variable (inner fuel : Nat)

theorem Quiet.bind {β : Type} {p : Pump α} {f : α → Pump β} (hp : Quiet w p) (hf : ∀ a, Quiet w (f a)) :
    Quiet w (p >>= f) :=
  Obeys.bind hp fun a _ _ => hf a

theorem quiet_get_carry : Quiet w get_carry := ⟨trivial, fun _ => trivial⟩

theorem quiet_set_carry (carry : Bytes) : Quiet w (set_carry carry) := ⟨trivial, fun _ => trivial⟩

theorem quiet_lift (r : Except IoError α) : Quiet w (lift r) := by
  cases r <;> trivial

theorem quiet_read (max : Nat) : Quiet w (read max) := Quiet.bind ⟨trivial, fun _ => trivial⟩ quiet_lift

theorem quiet_write_body (buf : Bytes) : Quiet true (write_all .body buf) :=
  Quiet.bind ⟨rfl, fun _ => trivial⟩ quiet_lift

theorem quiet_read_until (u : Until) (fuel scanned : Nat) : Quiet w (read_until u fuel scanned) := by
  induction fuel generalizing scanned with
  | zero => trivial
  | succ fuel ih =>
    refine Quiet.bind quiet_get_carry fun carry => ?_
    split
    · trivial
    · split
      · trivial
      · refine Quiet.bind (quiet_read _) fun tmp => ?_
        split
        · exact quiet_lift _
        · exact Quiet.bind (quiet_set_carry _) fun _ => ih _

theorem quiet_control_line : Quiet w (read_control_line fuel) := by
  refine Quiet.bind (quiet_read_until _ _ _) fun r => ?_
  cases r with
  | none => trivial
  | some e => exact Quiet.bind quiet_get_carry fun _ => Quiet.bind (quiet_set_carry _) fun _ => trivial

theorem quiet_copy_exact (n : Nat) : Quiet true (copy_exact fuel n) := by
  induction fuel generalizing n with
  | zero => trivial
  | succ fuel ih =>
    rw [copy_exact]
    split
    · trivial
    · refine Quiet.bind (quiet_read _) fun buf => ?_
      split
      · trivial
      · exact Quiet.bind (quiet_write_body _) fun _ => ih _

theorem quiet_copy_body (n : Nat) : Quiet true (copy_body fuel n) := by
  refine Quiet.bind quiet_get_carry fun carry => Quiet.bind (quiet_write_body _) fun _ =>
    Quiet.bind (quiet_set_carry _) fun _ => ?_
  dsimp only
  split
  · exact quiet_copy_exact _ _
  · trivial

theorem quiet_trailers : Quiet true (copy_trailers inner fuel) := by
  induction fuel with
  | zero => trivial
  | succ fuel ih =>
    refine Quiet.bind (quiet_control_line _) fun trailer => Quiet.bind (quiet_write_body _) fun _ => ?_
    split
    · trivial
    · exact ih

theorem quiet_chunked : Quiet true (copy_chunked_body inner fuel) := by
  induction fuel with
  | zero => trivial
  | succ fuel ih =>
    refine Quiet.bind (quiet_control_line _) fun line => Quiet.bind (quiet_lift _) fun size =>
      Quiet.bind (quiet_write_body _) fun _ => ?_
    split
    · exact quiet_trailers _ _
    · refine Quiet.bind (quiet_copy_body _ _) fun _ => Quiet.bind (quiet_control_line _) fun crlf => ?_
      split
      · trivial
      · exact Quiet.bind (quiet_write_body _) fun _ => ih

theorem quiet_request_body (body : RequestBody) : Quiet true (copy_request_body inner body) := by
  cases body with
  | None => trivial
  | Length n => exact quiet_copy_body _ _
  | Chunked => exact quiet_chunked _ _

end Quiet

section Framed

variable {β : Type} {p : Pump α} {f : α → Pump β}

/-- The request pump is quiet but for the body of a request it has forwarded. -/
theorem Quiet.request {w : Bool} {rewrites : List HeaderRewrite} {g : Asking} {Q : β → Asking → Prop} (h : Quiet w p)
    (hw : w = true → g.sent ≠ []) (hf : ∀ a, Obeys (request_protocol rewrites) Q (f a) g) :
    Obeys (request_protocol rewrites) Q (p >>= f) g := by
  refine Obeys.frame_bind h (fun o ho => ?_) fun a _ => hf a
  match o, ho with
  | .get_carry, _ => exact ⟨trivial, fun _ => rfl⟩
  | .set_carry _, _ => exact ⟨trivial, fun _ => rfl⟩
  | .read _, _ => exact ⟨trivial, fun _ => rfl⟩
  | .write_all .body _, ho => exact ⟨hw ho, fun _ => rfl⟩

theorem Quiet.reads {rewrites : List HeaderRewrite} {g : Asking} {Q : β → Asking → Prop} (h : Quiet false p)
    (hf : ∀ a, Obeys (request_protocol rewrites) Q (f a) g) : Obeys (request_protocol rewrites) Q (p >>= f) g :=
  h.request nofun hf

theorem Quiet.response {d : Answering} {Q : β → Answering → Prop} (h : Quiet true p)
    (hf : ∀ a, Obeys response_protocol Q (f a) d) : Obeys response_protocol Q (p >>= f) d := by
  refine Obeys.frame_bind h (fun o ho => ?_) fun a _ => hf a
  match o, ho with
  | .get_carry, _ => exact ⟨trivial, fun _ => rfl⟩
  | .set_carry _, _ => exact ⟨trivial, fun _ => rfl⟩
  | .read _, _ => exact ⟨trivial, fun _ => rfl⟩
  | .write_all .body _, _ => exact ⟨trivial, fun _ => rfl⟩

/-! ## The pumps obey their protocols -/

theorem write_then {γ : Type} {P : Protocol Op Op.Ans γ} {g : γ} {Q : β → γ → Prop} {f : Unit → Pump β}
    (h : P.allow (.write_all site buf) g) (hn : ∀ a, P.next (.write_all site buf) g a = g) (hf : Obeys P Q (f ()) g) :
    Obeys P Q (write_all site buf >>= f) g := by
  have hw : Obeys P (fun _ g' => g' = g) (write_all site buf) g := by
    refine Obeys.bind (Q := fun _ g' => g' = g) ⟨h, hn⟩ fun r g' hg => ?_
    cases r with
    | ok a => exact hg
    | error e => trivial
  refine Obeys.bind hw ?_
  rintro ⟨⟩ _ rfl
  exact hf

end Framed

theorem request_copy (rewrites : List HeaderRewrite) (fuel : Nat) {g : Asking} (hg : g.granted = true) :
    Obeys (request_protocol rewrites) (fun _ _ => True) (copy fuel) g := by
  induction fuel with
  | zero => trivial
  | succ fuel ih =>
    refine (quiet_read _).reads fun buf => ?_
    split
    · trivial
    · exact write_then hg (fun _ => rfl) ih

theorem request_pass_through (rewrites : List HeaderRewrite) (fuel : Nat) {g : Asking} (hg : g.granted = true) :
    Obeys (request_protocol rewrites) (fun _ _ => True) (pass_through fuel) g := by
  refine quiet_get_carry.reads fun carry => write_then hg (fun _ => rfl) ?_
  exact (quiet_set_carry _).reads fun _ => request_copy rewrites fuel hg

/-- The channel of a tunnel candidate is the one just made. -/
theorem request_channel (rewrites : List HeaderRewrite) (candidate : Bool) (g : Asking) :
    Obeys (request_protocol rewrites) (fun v g' => g'.sent = g.sent ∧ g'.granted = g.granted ∧
      v.isSome = candidate ∧ (v.isSome → v = g'.channel)) (verdict_channel candidate) g := by
  cases candidate with
  | true => exact ⟨trivial, fun _ => ⟨rfl, rfl, rfl, fun _ => rfl⟩⟩
  | false => exact ⟨rfl, rfl, rfl, nofun⟩

theorem request_obeys (rewrites : List HeaderRewrite) (inner fuel : Nat) {g : Asking} (hg : g.granted = false) :
    Obeys (request_protocol rewrites) (fun _ _ => True) (rewrite_request_stream rewrites inner fuel) g := by
  induction fuel generalizing g with
  | zero => trivial
  | succ fuel ih =>
    refine (quiet_read_until _ _ _).reads fun r => ?_
    cases r with
    | none => trivial
    | some e =>
      refine quiet_get_carry.reads fun carry => ?_
      dsimp only
      generalize carry.take e = block
      cases hhead : rewrite_request_head block rewrites with
      | error err => trivial
      | ok head =>
        cases hbody : framed_body block with
        | error err => trivial
        | ok body =>
          change Obeys _ _ (verdict_channel (is_tunnel_candidate block) >>= _) _
          refine Obeys.bind (request_channel rewrites _ _) fun v g₂ ⟨hsent, hgr, hsome, hch⟩ => ?_
          rw [hg] at hgr
          refine Obeys.bind (Q := fun sent g₃ => sent = true → g₃.sent = g.sent ++ [(block, meta_of block v)] ∧
            g₃.granted = false) ⟨⟨hgr, rfl, hsome, hch⟩, fun sent => ?_⟩ fun sent g₃ h₃ => ?_
          · cases sent with
            | false => exact nofun
            | true => exact fun _ => ⟨by rw [← hsent]; rfl, hgr⟩
          cases sent with
          | false => trivial
          | true =>
            obtain ⟨hsent₃, hgr₃⟩ := h₃ rfl
            have hlast : g₃.sent.getLast? = some (block, meta_of block v) := by rw [hsent₃]; simp
            have hne : g₃.sent ≠ [] := by simp [hsent₃]
            refine write_then ⟨block, _, hlast, hhead⟩ (fun _ => rfl) ?_
            refine quiet_get_carry.reads fun _ => (quiet_set_carry _).reads fun _ => ?_
            refine (quiet_request_body inner body).request (fun _ => hne) fun _ => ?_
            cases v with
            | none => exact ih hgr₃
            | some id =>
              refine Obeys.bind (Q := fun b g' => (b = some true → g'.granted = true) ∧
                (b = some false → g'.granted = false)) ⟨⟨block, _, hlast, rfl⟩, fun b => ?_⟩ fun b g₈ h₈ => ?_
              · rcases b with _ | _ | _
                · exact ⟨nofun, nofun⟩
                · exact ⟨nofun, fun _ => hgr₃⟩
                · exact ⟨fun _ => rfl, nofun⟩
              · rcases b with _ | _ | _
                · trivial
                · exact ih (h₈.2 rfl)
                · exact request_pass_through rewrites inner (h₈.1 rfl)

theorem response_copy (fuel : Nat) (d : Answering) : Obeys response_protocol (fun _ _ => True) (copy fuel) d := by
  induction fuel with
  | zero => trivial
  | succ fuel ih =>
    refine (quiet_read _).response fun buf => ?_
    split
    · trivial
    · exact write_then trivial (fun _ => rfl) ih

theorem response_pass_through (fuel : Nat) (d : Answering) :
    Obeys response_protocol (fun _ _ => True) (pass_through fuel) d := by
  refine quiet_get_carry.response fun carry => write_then trivial (fun _ => rfl) ?_
  exact (quiet_set_carry _).response fun _ => response_copy fuel d

theorem response_report {head : Bytes} {status : Nat} (hs : parse_status head = some status) :
    Obeys response_protocol (fun _ _ => True) (report_verdict m status) (some (head, m)) := by
  unfold report_verdict
  split
  · rename_i id hid
    exact ⟨⟨head, m, status, rfl, hid, hs, rfl⟩, fun _ => trivial⟩
  · split <;> trivial

theorem response_obeys (inner fuel : Nat) (d : Answering) :
    Obeys response_protocol (fun _ _ => True) (forward_response_stream inner fuel) d := by
  induction fuel generalizing d with
  | zero => trivial
  | succ fuel ih =>
    refine (quiet_read_until _ _ _).response fun r => ?_
    cases r with
    | none => trivial
    | some e =>
      refine quiet_get_carry.response fun carry => ?_
      dsimp only
      generalize carry.take e = head
      cases hstatus : parse_status head with
      | none => trivial
      | some status =>
        dsimp only
        split
        · refine write_then trivial (fun _ => rfl) ?_
          exact quiet_get_carry.response fun _ => (quiet_set_carry _).response fun _ => ih d
        · rename_i hfinal
          have hfinal : is_interim status = false := by simpa using hfinal
          refine Obeys.bind (Q := fun a d' => ∀ m, a = some m → d' = some (head, m))
            ⟨⟨status, hstatus, hfinal⟩, fun a => ?_⟩ fun a d₃ h₃ => ?_
          · rintro m rfl
            rfl
          cases a with
          | none => trivial
          | some m =>
            obtain rfl := h₃ m rfl
            refine Obeys.bind (response_report hstatus) fun _ d₄ _ => write_then trivial (fun _ => rfl) ?_
            refine quiet_get_carry.response fun _ => (quiet_set_carry _).response fun _ => ?_
            split
            · exact response_pass_through inner d₄
            · split
              · exact ih d₄
              · exact (quiet_copy_body _ _).response fun _ => ih d₄
              · exact (quiet_chunked _ _).response fun _ => ih d₄
              · exact response_pass_through inner d₄

/-! ## Both pumps at once -/

/-- What holds at every moment: the responses processed answer the first requests
forwarded, in order, and the rest are queued; channels are used once; a verdict
is the judgement on a response; and what the request pump has just written, it may. -/
structure Inv (rewrites : List HeaderRewrite) (g : Asking) (d : Answering) (c : Conn) : Prop where
  sent : requests c.log = g.sent
  queue : (responses c.log).map (·.2) ++ c.queue = g.sent.map (·.2)
  metas : ∀ x ∈ g.sent, x.2 = meta_of x.1 x.2.verdict ∧ x.2.verdict.isSome = is_tunnel_candidate x.1
  once : g.sent.Pairwise fun x y => ∀ id, x.2.verdict = some id → y.2.verdict ≠ some id
  made : ∀ x ∈ g.sent, ∀ id, x.2.verdict = some id → id < c.next_id
  channel : ∀ id, g.channel = some id → id < c.next_id ∧ ∀ x ∈ g.sent, x.2.verdict ≠ some id
  final : ∀ x ∈ responses c.log, ∃ status, parse_status x.1 = some status ∧ is_interim status = false
  decided : ∀ id b, (id, b) ∈ c.decided → ∃ x ∈ responses c.log, ∃ status,
    x.2.verdict = some id ∧ parse_status x.1 = some status ∧ b = tunnel_established x.2 status
  granted : g.granted = true → ∃ block m id, g.sent.getLast? = some (block, m) ∧ m.verdict = some id ∧
    (id, true) ∈ c.decided
  current : ∀ x, d = some x → x ∈ responses c.log
  gate : ∀ log site buf, c.log = log ++ [.wrote .request site buf] → Gate rewrites log site buf

theorem inv_init (rewrites : List HeaderRewrite) : Inv rewrites ⟨[], none, false⟩ none Conn.init := by
  constructor <;> simp [Conn.init, requests, responses]

theorem tunnel_established_meta {block : Bytes} {id status : Nat}
    (h : tunnel_established (meta_of block (some id)) status = true) :
    (is_connect block = true ∧ 200 ≤ status ∧ status < 300) ∨
      (is_connect block = false ∧ is_upgrade block = true ∧ status = 101) := by
  simp only [tunnel_established, meta_of, is_tunnel_candidate] at h
  cases hc : is_connect block <;> simp_all

/-- A pump that was granted the tunnel was granted it by the response to its last request. -/
theorem Inv.accepted {rewrites : List HeaderRewrite} {g : Asking} {d : Answering} {c : Conn}
    (h : Inv rewrites g d c) (hg : g.granted = true) : Accepted c.log := by
  obtain ⟨block, m, id, hlast, hid, hdec⟩ := h.granted hg
  obtain ⟨⟨head, m'⟩, hx, status, hid', hstatus, hb⟩ := h.decided id true hdec
  obtain ⟨k, hk, hkx⟩ := List.mem_iff_getElem.1 hx
  have hne : g.sent ≠ [] := by rintro hn; simp [hn] at hlast
  obtain ⟨n, hn⟩ : ∃ n, g.sent.length = n + 1 := Nat.exists_eq_succ_of_ne_zero (by simpa using hne)
  have hlast' : g.sent[n]? = some (block, m) := by
    rw [← hlast, List.getLast?_eq_getElem?, hn]
    rfl
  -- The response is matched with the k-th request, which has the same channel.
  have hkm : (g.sent.map (·.2))[k]? = some m' := by
    rw [← h.queue, List.getElem?_append_left (by simpa using hk), List.getElem?_map, List.getElem?_eq_getElem hk, hkx]
    rfl
  obtain ⟨⟨b', m''⟩, hkb, hm⟩ := Option.map_eq_some_iff.1 (by rw [← List.getElem?_map]; exact hkm)
  obtain rfl : m'' = m' := hm
  have hkn : k = n := by
    obtain ⟨hk', hkb'⟩ := List.getElem?_eq_some_iff.1 hkb
    obtain ⟨hn', hnb'⟩ := List.getElem?_eq_some_iff.1 hlast'
    by_contra hne
    have := List.pairwise_iff_getElem.1 h.once k n hk' hn' (by omega) id
    rw [hkb', hnb'] at this
    exact this hid' hid
  subst hkn
  rw [hlast'] at hkb
  cases hkb
  obtain ⟨status', hstatus', hfinal⟩ := h.final _ hx
  rw [hstatus] at hstatus'
  cases hstatus'
  refine ⟨k, block, head, m, status, ?_, ?_, ?_, hstatus, hfinal, ?_⟩
  · rw [h.sent, hn]
  · rw [h.sent, hlast']
  · rw [List.getElem?_eq_getElem hk, hkx]
  · have hmeta := (h.metas _ (List.mem_of_getElem? hlast')).1
    dsimp only at hmeta
    rw [hid] at hmeta
    rw [hmeta] at hb
    exact tunnel_established_meta hb.symm

theorem gate_append {rewrites : List HeaderRewrite} {e : Event}
    (he : ∀ site buf, e = .wrote .request site buf → Gate rewrites log site buf) :
    ∀ pre site buf, log ++ [e] = pre ++ [.wrote .request site buf] → Gate rewrites pre site buf := by
  intro pre site buf heq
  obtain ⟨rfl, hlast⟩ := List.append_inj' heq rfl
  exact he site buf (List.singleton_inj.1 hlast)

section Keeping

variable {rewrites : List HeaderRewrite} {g : Asking} {d : Answering} {c : Conn}

/-- A write of either pump, within the gate if it is the request pump's. -/
theorem Inv.wrote (h : Inv rewrites g d c) (hgate : side = .request → Gate rewrites c.log site buf) :
    Inv rewrites g d { c with log := c.log ++ [.wrote side site buf] } := by
  have hreq : requests (c.log ++ [.wrote side site buf]) = requests c.log := by simp [requests]
  have hres : responses (c.log ++ [.wrote side site buf]) = responses c.log := by simp [responses]
  refine { h with sent := ?_, queue := ?_, final := ?_, decided := ?_, current := ?_, gate := ?_ }
  · rw [hreq]
    exact h.sent
  · rw [hres]
    exact h.queue
  · rw [hres]
    exact h.final
  · rw [hres]
    exact h.decided
  · rw [hres]
    exact h.current
  · refine gate_append fun site' buf' he => ?_
    cases he
    exact hgate rfl

/-- A request handed to the response pump, with the channel made for it. -/
theorem Inv.send (h : Inv rewrites g d c) {block : Bytes} (hgr : g.granted = false)
    (hmeta : m = meta_of block m.verdict) (hsome : m.verdict.isSome = is_tunnel_candidate block)
    (hch : m.verdict.isSome → m.verdict = g.channel) :
    Inv rewrites { g with sent := g.sent ++ [(block, m)], channel := none } d
      { c with queue := c.queue ++ [m], log := c.log ++ [.sent block m] } := by
  have hreq : requests (c.log ++ [.sent block m]) = requests c.log ++ [(block, m)] := by simp [requests]
  have hres : responses (c.log ++ [.sent block m]) = responses c.log := by simp [responses]
  have hnew : ∀ id, m.verdict = some id → id < c.next_id ∧ ∀ x ∈ g.sent, x.2.verdict ≠ some id := by
    intro id hid
    exact h.channel id (by rw [← hch (by simp [hid]), hid])
  constructor
  · change requests (c.log ++ [.sent block m]) = _
    rw [hreq, h.sent]
  · change (responses (c.log ++ [.sent block m])).map (·.2) ++ (c.queue ++ [m]) = (g.sent ++ [(block, m)]).map (·.2)
    rw [hres, ← List.append_assoc, h.queue, List.map_append]
    rfl
  · intro x hx
    rcases List.mem_append.1 hx with hx | hx
    · exact h.metas x hx
    · rw [List.mem_singleton.1 hx]
      exact ⟨hmeta, hsome⟩
  · refine List.pairwise_append.2 ⟨h.once, List.pairwise_singleton _ _, fun x hx y hy id hxid hyid => ?_⟩
    rw [List.mem_singleton.1 hy] at hyid
    exact (hnew id hyid).2 x hx hxid
  · intro x hx id hid
    rcases List.mem_append.1 hx with hx | hx
    · exact h.made x hx id hid
    · rw [List.mem_singleton.1 hx] at hid
      exact (hnew id hid).1
  · exact nofun
  · change ∀ x ∈ responses (c.log ++ [.sent block m]), _
    rw [hres]
    exact h.final
  · change ∀ id b, (id, b) ∈ c.decided → ∃ x ∈ responses (c.log ++ [.sent block m]), _
    rw [hres]
    exact h.decided
  · intro hg
    change g.granted = true at hg
    rw [hgr] at hg
    cases hg
  · change ∀ x, d = some x → x ∈ responses (c.log ++ [.sent block m])
    rw [hres]
    exact h.current
  · exact gate_append nofun

theorem Inv.recv (h : Inv rewrites g d c) {head : Bytes} {q : List RequestMeta}
    (hfinal : ∃ status, parse_status head = some status ∧ is_interim status = false) (hq : c.queue = m :: q) :
    Inv rewrites g (some (head, m)) { c with queue := q, log := c.log ++ [.answered head m] } := by
  have hreq : requests (c.log ++ [.answered head m]) = requests c.log := by simp [requests]
  have hres : responses (c.log ++ [.answered head m]) = responses c.log ++ [(head, m)] := by simp [responses]
  refine { h with sent := ?_, queue := ?_, final := ?_, decided := ?_, current := ?_, gate := gate_append nofun }
  · rw [hreq]
    exact h.sent
  · have := h.queue
    rw [hq] at this
    rw [hres, List.map_append, List.append_assoc]
    exact this
  · rw [hres]
    intro x hx
    rcases List.mem_append.1 hx with hx | hx
    · exact h.final x hx
    · rw [List.mem_singleton.1 hx]
      exact hfinal
  · rw [hres]
    intro id b hb
    obtain ⟨x, hx, hrest⟩ := h.decided id b hb
    exact ⟨x, List.mem_append_left _ hx, hrest⟩
  · rw [hres]
    rintro x ⟨rfl⟩
    simp

end Keeping

theorem inv_request {rewrites : List HeaderRewrite} (o : Op) (g : Asking) (d : Answering) (c : Conn) (a : o.Ans)
    (c' : Conn) (h : Inv rewrites g d c) (ha : (request_protocol rewrites).allow o g) (hs : serves .request o c a c') :
    Inv rewrites ((request_protocol rewrites).next o g a) d c' := by
  cases o with
  | get_carry =>
    obtain ⟨-, rfl⟩ := hs
    exact h
  | set_carry carry =>
    obtain rfl := hs
    exact { h with }
  | read max =>
    obtain ⟨-, rfl⟩ := hs
    exact h
  | write_all site buf =>
    obtain rfl := hs
    refine h.wrote fun _ => ?_
    cases site with
    | head =>
      obtain ⟨block, m, hlast, hr⟩ := ha
      exact ⟨block, m, by rw [h.sent]; exact hlast, hr⟩
    | body =>
      change requests c.log ≠ []
      rw [h.sent]
      exact ha
    | raw => exact h.accepted ha
  | oneshot =>
    obtain ⟨rfl, rfl⟩ := hs
    refine { h with made := fun x hx id hid => Nat.lt_succ_of_lt (h.made x hx id hid), channel := ?_ }
    rintro id ⟨rfl⟩
    exact ⟨Nat.lt_succ_self _, fun x hx hid => Nat.lt_irrefl _ (h.made x hx _ hid)⟩
  | send block m =>
    obtain ⟨hgr, hmeta, hsome, hch⟩ := ha
    rcases hs with ⟨rfl, rfl⟩ | ⟨rfl, rfl⟩
    · exact h.send hgr hmeta hsome hch
    · exact h
  | verdict id =>
    obtain ⟨hdec, rfl⟩ := hs
    obtain ⟨block, m, hlast, hid⟩ := ha
    rcases a with _ | _ | _
    · exact h
    · exact h
    · exact { h with granted := fun _ => ⟨block, m, id, hlast, hid, hdec true rfl⟩ }
  | recv head => exact ha.elim
  | send_verdict id accepted => exact ha.elim

theorem inv_response {rewrites : List HeaderRewrite} (o : Op) (g : Asking) (d : Answering) (c : Conn) (a : o.Ans)
    (c' : Conn) (h : Inv rewrites g d c) (ha : response_protocol.allow o d) (hs : serves .response o c a c') :
    Inv rewrites g (response_protocol.next o d a) c' := by
  cases o with
  | get_carry =>
    obtain ⟨-, rfl⟩ := hs
    exact h
  | set_carry carry =>
    obtain rfl := hs
    exact { h with }
  | read max =>
    obtain ⟨-, rfl⟩ := hs
    exact h
  | write_all site buf =>
    obtain rfl := hs
    exact h.wrote nofun
  | oneshot => exact ha.elim
  | send block m => exact ha.elim
  | verdict id => exact ha.elim
  | recv head =>
    rcases hs with ⟨m, q, hq, rfl, rfl⟩ | ⟨rfl, rfl⟩
    · exact h.recv ha hq
    · exact h
  | send_verdict id accepted =>
    obtain rfl := hs
    obtain ⟨head, m, status, hd, hid, hstatus, hacc⟩ := ha
    refine { h with decided := ?_, granted := ?_ }
    · intro id' b hb
      rcases List.mem_append.1 hb with hb | hb
      · exact h.decided id' b hb
      · cases List.mem_singleton.1 hb
        exact ⟨(head, m), h.current _ hd, status, hid, hstatus, hacc⟩
    · intro hg
      obtain ⟨block, m', id', h1, h2, h3⟩ := h.granted hg
      exact ⟨block, m', id', h1, h2, List.mem_append_left _ h3⟩

theorem serves_log {o : Op} {c c' : Conn} {a : o.Ans} (h : serves side o c a c') :
    c'.log = c.log ∨ ∃ e, c'.log = c.log ++ [e] := by
  cases o with
  | set_carry carry =>
    obtain rfl := h
    exact .inl rfl
  | write_all site buf =>
    obtain rfl := h
    exact .inr ⟨_, rfl⟩
  | send block m =>
    rcases h with ⟨-, rfl⟩ | ⟨-, rfl⟩
    · exact .inr ⟨_, rfl⟩
    · exact .inl rfl
  | recv head =>
    rcases h with ⟨m, q, -, -, rfl⟩ | ⟨-, rfl⟩
    · exact .inr ⟨_, rfl⟩
    · exact .inl rfl
  | send_verdict id accepted =>
    obtain rfl := h
    exact .inl rfl
  | get_carry | read max | oneshot | verdict id =>
    obtain ⟨-, rfl⟩ := h
    exact .inl rfl

/-- Every beginning of the log was the log at some moment. -/
theorem interleaved_log {p₀ q₀ p q : Pump Unit} {c : Conn}
    (h : Interleaved (serves .request) (serves .response) p₀ q₀ Conn.init p q c) (hlog : log <+: c.log) :
    ∃ p' q' c', Interleaved (serves .request) (serves .response) p₀ q₀ Conn.init p' q' c' ∧ c'.log = log := by
  have hstep : ∀ {c c' : Conn}, (c'.log = c.log ∨ ∃ e, c'.log = c.log ++ [e]) → log <+: c'.log →
      log = c'.log ∨ log <+: c.log := by
    rintro c c' (h | ⟨e, h⟩) hlog
    · exact .inr (h ▸ hlog)
    · rw [h] at hlog ⊢
      exact List.prefix_concat_iff.1 hlog
  induction h with
  | start => exact ⟨_, _, _, .start, (List.prefix_nil.1 hlog).symm⟩
  | left hr hs ih =>
    rcases hstep (serves_log hs) hlog with rfl | hlog
    · exact ⟨_, _, _, hr.left hs, rfl⟩
    · exact ih hlog
  | right hr hs ih =>
    rcases hstep (serves_log hs) hlog with rfl | hlog
    · exact ⟨_, _, _, hr.right hs, rfl⟩
    · exact ih hlog

theorem interleaved_gate {rewrites : List HeaderRewrite} {inner fuel inner' fuel' : Nat} {p q : Pump Unit} {c : Conn}
    (h : Interleaved (serves .request) (serves .response) (rewrite_request_stream rewrites inner fuel)
      (forward_response_stream inner' fuel') Conn.init p q c) (hlog : c.log = log ++ [.wrote .request site buf]) :
    Gate rewrites log site buf := by
  obtain ⟨g, d, -, -, hinv⟩ := h.inv (request_obeys rewrites inner fuel rfl) (response_obeys inner' fuel' none)
    (Inv rewrites) (inv_init rewrites) inv_request inv_response
  exact hinv.gate log site buf hlog

/-! ## A scheduled run -/

/-- One answer the connection can give, when nothing fails and these fragments arrive;
none while the pump has to wait for the other. -/
def answer (side : Side) (input : List Bytes) : (o : Op) → Conn → Option (o.Ans × Conn × List Bytes)
  | .get_carry, c => some (c.carry side, c, input)
  | .set_carry carry, c => some ((), { c with carry := Function.update c.carry side carry }, input)
  | .read max, c => some (.ok ((input.headD []).take max), c, input.tail)
  | .write_all site buf, c => some (.ok (), { c with log := c.log ++ [.wrote side site buf] }, input)
  | .oneshot, c => some (c.next_id, { c with next_id := c.next_id + 1 }, input)
  | .send block m, c => some (true, { c with queue := c.queue ++ [m], log := c.log ++ [.sent block m] }, input)
  | .verdict id, c => (c.decided.find? (·.1 == id)).map fun x => (some x.2, c, input)
  | .recv head, c =>
    match c.queue with
    | [] => none
    | m :: q => some (some m, { c with queue := q, log := c.log ++ [.answered head m] }, input)
  | .send_verdict id accepted, c => some ((), { c with decided := c.decided ++ [(id, accepted)] }, input)

theorem answer_serves {input input' : List Bytes} {o : Op} {c c' : Conn} {a : o.Ans}
    (h : answer side input o c = some (a, c', input')) : serves side o c a c' := by
  cases o with
  | get_carry => cases h; exact ⟨rfl, rfl⟩
  | set_carry carry => cases h; rfl
  | read max =>
    cases h
    refine ⟨fun b hb => ?_, rfl⟩
    cases hb
    exact List.length_take_le _ _
  | write_all site buf => cases h; rfl
  | oneshot => cases h; exact ⟨rfl, rfl⟩
  | send block m => cases h; exact .inl ⟨rfl, rfl⟩
  | verdict id =>
    obtain ⟨⟨id', b'⟩, hx, he⟩ := Option.map_eq_some_iff.1 h
    cases he
    refine ⟨fun b hb => ?_, rfl⟩
    cases hb
    have hid : id' = id := by simpa using List.find?_some hx
    rw [← hid]
    exact List.mem_of_find?_eq_some hx
  | recv head =>
    cases hq : c.queue with
    | nil => simp [answer, hq] at h
    | cons m q =>
      simp only [answer, hq, Option.some.injEq] at h
      cases h
      exact .inl ⟨m, q, hq, rfl, rfl⟩
  | send_verdict id accepted => cases h; rfl

/-- One operation of a pump, unless it is through or has to wait. -/
def act (side : Side) (p : Pump Unit) (c : Conn) (input : List Bytes) : Pump Unit × Conn × List Bytes :=
  match p with
  | .op o k => ((answer side input o c).map fun r => (k r.1, r.2)).getD (p, c, input)
  | _ => (p, c, input)

theorem act_serves (side : Side) (p : Pump Unit) (c : Conn) (input : List Bytes) :
    ((act side p c input).1 = p ∧ (act side p c input).2.1 = c) ∨ ∃ o k a, p = .op o k ∧
      (act side p c input).1 = k a ∧ serves side o c a (act side p c input).2.1 := by
  cases p with
  | pure a => exact .inl ⟨rfl, rfl⟩
  | fail e => exact .inl ⟨rfl, rfl⟩
  | op o k =>
    rw [act]
    cases ha : answer side input o c with
    | none => exact .inl ⟨rfl, rfl⟩
    | some r => exact .inr ⟨o, k, r.1, rfl, rfl, answer_serves ha⟩

/-- The two pumps, the connection, and the fragments still to come from each end. -/
structure Play where
  request : Pump Unit
  response : Pump Unit
  conn : Conn
  client : List Bytes
  upstream : List Bytes

def Play.turn (x : Play) : Side → Play
  | .request =>
    let r := act .request x.request x.conn x.client
    { x with request := r.1, conn := r.2.1, client := r.2.2 }
  | .response =>
    let r := act .response x.response x.conn x.upstream
    { x with response := r.1, conn := r.2.1, upstream := r.2.2 }

theorem turn_interleaved {p₀ q₀ : Pump Unit} {c₀ : Conn} {x : Play}
    (h : Interleaved (serves .request) (serves .response) p₀ q₀ c₀ x.request x.response x.conn) (side : Side) :
    Interleaved (serves .request) (serves .response) p₀ q₀ c₀ (x.turn side).request (x.turn side).response
      (x.turn side).conn := by
  cases side with
  | request =>
    rcases act_serves .request x.request x.conn x.client with ⟨h1, h2⟩ | ⟨o, k, a, h1, h2, h3⟩
    · simpa only [Play.turn, h1, h2] using h
    · rw [h1] at h
      simp only [Play.turn, h2]
      exact .left h h3
  | response =>
    rcases act_serves .response x.response x.conn x.upstream with ⟨h1, h2⟩ | ⟨o, k, a, h1, h2, h3⟩
    · simpa only [Play.turn, h1, h2] using h
    · rw [h1] at h
      simp only [Play.turn, h2]
      exact .right h h3

/-- The pumps take turns in this order. -/
def Play.run (x : Play) (schedule : List Side) : Play := schedule.foldl Play.turn x

theorem run_interleaved {p₀ q₀ : Pump Unit} {c₀ : Conn} {x : Play}
    (h : Interleaved (serves .request) (serves .response) p₀ q₀ c₀ x.request x.response x.conn) (schedule : List Side) :
    Interleaved (serves .request) (serves .response) p₀ q₀ c₀ (x.run schedule).request (x.run schedule).response
      (x.run schedule).conn := by
  induction schedule generalizing x with
  | nil => exact h
  | cons side schedule ih => exact ih (turn_interleaved h side)

end Symphony.Http
