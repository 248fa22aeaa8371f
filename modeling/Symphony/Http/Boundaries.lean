import Symphony.Http.Owned
import Symphony.Http.Rfc
import Symphony.Http.Stream
/-!
# Request boundaries

What symphony writes is a sequence of heads, each followed by its body. A recipient
that splits these bytes itself finds the same requests: every head it takes for a
request is one symphony rewrote, as long as it agrees that a CONNECT has no body. A
recipient that reads a body after a CONNECT is led to heads symphony never saw.
-/

namespace Symphony.Http

open Lib (Prog position unlines)

/-- The requests symphony has written: each head with the body bytes after it. -/
def framed : List (Site × Bytes) → List (Bytes × Bytes)
  | [] => []
  | (.head, head) :: ws => (head, written (ws.takeWhile (·.1 == .body))) :: framed ws
  | _ :: ws => framed ws

variable {w : World} {f : Bytes → Taken} {rewrites : List HeaderRewrite}

theorem framed_body_writes {bs ws : List (Site × Bytes)} (hbs : ∀ x ∈ bs, x.1 = .body) :
    framed (bs ++ ws) = framed ws := by
  induction bs with
  | nil => rfl
  | cons x bs ih =>
    obtain ⟨site, buf⟩ := x
    obtain rfl : site = .body := hbs (site, buf) (by simp)
    rw [List.cons_append, framed]
    · exact ih fun x hx => hbs x (by simp [hx])
    · simp

theorem framed_request (head : Bytes) {bs ws : List (Site × Bytes)} (hbs : ∀ x ∈ bs, x.1 = .body)
    (hws : ∀ x ∈ ws.head?, x.1 = .head) :
    framed ((.head, head) :: (bs ++ ws)) = (head, written bs) :: framed ws := by
  have htake : (bs ++ ws).takeWhile (·.1 == Site.body) = bs := by
    rw [List.takeWhile_append_of_pos fun x hx => by simp [hbs x hx]]
    cases ws with
    | nil => simp
    | cons x ws =>
      have hx : x.1 = .head := hws x (by simp)
      rw [List.takeWhile_cons_of_neg (by simp [hx]), List.append_nil]
  rw [framed, htake, framed_body_writes hbs]

/-! ## Bodies -/

/-- What the program writes is a body for the recipient, or the beginning of one. -/
def Agrees (p : Pump Unit) (w : World) (f : Bytes → Taken) : Prop :=
  ∃ res rest b, Reaches p w res rest b ∧
    ((res = .ok () ∧ ∀ t, f (b ++ t) = .invalid ∨ f (b ++ t) = .whole b t) ∨
      ((∃ e, res = .error e) ∧ (f b = .invalid ∨ f b = .short ∨ f b = .whole b [])))

theorem Agrees.fail {α : Type} {p : Pump α} (g : α → Pump Unit) {e : Stop} {rest b : Bytes}
    (h : Reaches p w (.error e) rest b) (hf : f b = .short) : Agrees (p >>= g) w f :=
  ⟨_, _, _, h.bind_error g, .inr ⟨⟨e, rfl⟩, .inr (.inl hf)⟩⟩

theorem Agrees.bind {α : Type} {p : Pump α} {g : α → Pump Unit} {a : α} {rest b : Bytes} {k : Bytes → Taken}
    (hp : Reaches p w (.ok a) rest b) (hg : ∀ w' : World, w'.Ready → Agrees (g a) w' k)
    (hf : ∀ s, f (b ++ s) = .invalid ∨ f (b ++ s) = (k s).after b) : Agrees (p >>= g) w f := by
  obtain ⟨w', hw', -, hbind⟩ := hp.bind
  obtain ⟨res, rest', b', hr, hres⟩ := hg w' hw'
  refine ⟨res, rest', b ++ b', hbind g hr, ?_⟩
  rcases hres with ⟨hok, h⟩ | ⟨herr, h⟩
  · refine .inl ⟨hok, fun t => ?_⟩
    rw [List.append_assoc]
    rcases hf (b' ++ t) with hi | he
    · exact .inl hi
    · rw [he]
      rcases h t with h | h <;> rw [h]
      · exact .inl rfl
      · exact .inr rfl
  · refine .inr ⟨herr, ?_⟩
    rcases hf b' with hi | he
    · exact .inl hi
    · rw [he]
      rcases h with h | h | h <;> rw [h]
      · exact .inl rfl
      · exact .inr (.inl rfl)
      · exact .inr (.inr rfl)

theorem Taken.after_nil (t : Taken) : t.after [] = t := by cases t <;> rfl

theorem Agrees.line {inner : Nat} (hw : w.Ready) {g : Bytes → Pump Unit} (hnil : f [] = .short)
    (hg : ∀ l, Plain l → ∀ w' : World, w'.Ready → Agrees (g (l ++ CRLF)) w' f) :
    Agrees (read_control_line inner >>= g) w f := by
  obtain ⟨res, rest, hr, hres⟩ := reaches_control_line inner w hw
  rcases hres with ⟨line, rfl, hcut⟩ | ⟨e, rfl, -⟩ | ⟨rfl, -⟩ | ⟨rfl, -⟩
  · obtain ⟨l, hl, rfl⟩ : ∃ l, Plain l ∧ line = l ++ CRLF := by
      unfold cut_line at hcut
      split at hcut
      · rename_i l r hn
        cases hcut
        exact ⟨l, (next_line_eq_some.1 hn).1, rfl⟩
      · cases hcut
    exact Agrees.bind hr (hg l hl) fun s => .inr (by rw [Taken.after_nil, List.nil_append])
  · exact Agrees.fail g hr hnil
  · exact Agrees.fail g hr hnil
  · exact Agrees.fail g hr hnil

theorem rfc_trailers_nil : rfc_trailers [] = .short := by
  rw [rfc_trailers]
  rfl

theorem rfc_trailers_line {l : Bytes} (hl : Plain l) (t : Bytes) : rfc_trailers (l ++ CRLF ++ t) =
    if l = [] then .whole CRLF t else (rfc_trailers t).after (l ++ CRLF) := by
  have h : next_line (l ++ CRLF ++ t) = some (l, t) := next_line_eq_some.2 ⟨hl, rfl⟩
  rw [rfc_trailers]
  generalize next_line (l ++ CRLF ++ t) = x at h ⊢
  subst h
  rfl

theorem agrees_trailers (inner fuel : Nat) (hw : w.Ready) :
    Agrees (copy_trailers inner fuel) w rfc_trailers := by
  induction fuel generalizing w with
  | zero => exact ⟨_, _, _, Reaches.fail hw _, .inr ⟨⟨_, rfl⟩, .inr (.inl rfc_trailers_nil)⟩⟩
  | succ fuel ih =>
    rw [copy_trailers]
    refine Agrees.line hw rfc_trailers_nil fun l hl w' hw' => ?_
    by_cases hcr : l = []
    · subst hcr
      refine Agrees.bind (k := fun t => .whole [] t) (Reaches.write_all hw' _) (fun w'' hw'' => ?_) fun t => ?_
      · exact ⟨_, _, _, Reaches.pure hw'' (), .inl ⟨rfl, fun t => .inr rfl⟩⟩
      · right
        rw [rfc_trailers_line hl, if_pos rfl]
        rfl
    · refine Agrees.bind (k := rfc_trailers) (Reaches.write_all hw' _) (fun w'' hw'' => ?_) fun t => ?_
      · rw [if_neg (by simpa [CRLF] using hcr)]
        exact ih hw''
      · right
        rw [rfc_trailers_line hl, if_neg hcr]

/-- What has to follow the data of a chunk. -/
def chunk_end (s : Bytes) : Taken :=
  if s.length < 2 then .short
  else if s.take 2 ≠ CRLF then .invalid
  else (rfc_chunked (s.drop 2)).after CRLF

/-- The data of a chunk of that size, and what follows. -/
def chunk_data (size : Nat) (s : Bytes) : Taken :=
  if s.length < size + 2 then .short
  else if (s.drop size).take 2 ≠ CRLF then .invalid
  else (rfc_chunked (s.drop (size + 2))).after (s.take size ++ CRLF)

theorem rfc_chunked_nil : rfc_chunked [] = .short := by
  rw [rfc_chunked]
  rfl

theorem Taken.after_after (a b : Bytes) (t : Taken) : (t.after b).after a = t.after (a ++ b) := by
  cases t <;> simp [Taken.after]

theorem rfc_chunked_line {l : Bytes} (hl : Plain l) (t : Bytes) : rfc_chunked (l ++ CRLF ++ t) =
    match rfc_chunk_size l with
    | none => .invalid
    | some size => if size = 0 then (rfc_trailers t).after (l ++ CRLF) else (chunk_data size t).after (l ++ CRLF) := by
  have h : next_line (l ++ CRLF ++ t) = some (l, t) := next_line_eq_some.2 ⟨hl, rfl⟩
  rw [rfc_chunked]
  generalize next_line (l ++ CRLF ++ t) = x at h ⊢
  subst h
  dsimp only
  cases rfc_chunk_size l with
  | none => rfl
  | some size =>
    dsimp only
    unfold chunk_data
    split_ifs
    · rfl
    · rfl
    · rfl
    · rw [Taken.after_after, List.append_assoc, List.append_assoc]

theorem chunk_data_append {size : Nat} {b : Bytes} (hb : b.length = size) (s : Bytes) :
    chunk_data size (b ++ s) = (chunk_end s).after b := by
  unfold chunk_data chunk_end
  have h1 : (b ++ s).drop size = s := by rw [← hb, List.drop_left]
  have h2 : (b ++ s).take size = b := by rw [← hb, List.take_left]
  have h3 : (b ++ s).length = size + s.length := by rw [List.length_append, hb]
  have h4 : (b ++ s).drop (size + 2) = s.drop 2 := by rw [← List.drop_drop, h1]
  rw [h1, h2, h3, h4]
  by_cases hlen : s.length < 2
  · rw [if_pos hlen, if_pos (by omega)]
    rfl
  · rw [if_neg hlen, if_neg (by omega)]
    split_ifs
    · rfl
    · rw [Taken.after_after]

theorem agrees_chunked (inner fuel : Nat) (hw : w.Ready) :
    Agrees (copy_chunked_body inner fuel) w rfc_chunked := by
  induction fuel generalizing w with
  | zero => exact ⟨_, _, _, Reaches.fail hw _, .inr ⟨⟨_, rfl⟩, .inr (.inl rfc_chunked_nil)⟩⟩
  | succ fuel ih =>
    rw [copy_chunked_body]
    refine Agrees.line hw rfc_chunked_nil fun l hl w' hw' => ?_
    cases hsize : chunk_size (l ++ CRLF) with
    | error e => exact Agrees.fail _ (Reaches.fail hw' _) rfc_chunked_nil
    | ok size =>
      change Agrees (write_all .body (l ++ CRLF) >>= fun _ => _) w' _
      -- The recipient reads the same size, or stops.
      have hline : ∀ t, rfc_chunked (l ++ CRLF ++ t) = .invalid ∨ rfc_chunked (l ++ CRLF ++ t) =
          if size = 0 then (rfc_trailers t).after (l ++ CRLF) else (chunk_data size t).after (l ++ CRLF) := by
        intro t
        rw [rfc_chunked_line hl]
        cases hr : rfc_chunk_size l with
        | none => exact .inl rfl
        | some n =>
          obtain rfl := rfc_chunk_size_agrees hsize hr
          exact .inr rfl
      by_cases h0 : size = 0
      · simp only [if_pos h0] at hline ⊢
        exact Agrees.bind (Reaches.write_all hw' _) (fun w'' hw'' => agrees_trailers inner inner hw'') hline
      simp only [if_neg h0] at hline ⊢
      refine Agrees.bind (Reaches.write_all hw' _) (fun w'' hw'' => ?_) hline
      obtain ⟨res, rest, b, hr, -, hle, hres⟩ := reaches_copy_body inner size w'' hw''
      have hshort : chunk_data size b = .short := by
        rw [chunk_data, if_pos (by omega)]
      rcases hres with ⟨rfl, hlen⟩ | ⟨rfl, -⟩ | ⟨rfl, -⟩
      · refine Agrees.bind (k := chunk_end) hr (fun w₃ hw₃ => ?_) fun t => .inr (chunk_data_append hlen t)
        refine Agrees.line hw₃ rfl fun crlf hcrlf w₄ hw₄ => ?_
        by_cases hcr : crlf ++ CRLF ≠ CRLF
        · rw [if_pos hcr]
          exact ⟨_, _, _, Reaches.fail hw₄ _, .inr ⟨⟨_, rfl⟩, .inr (.inl rfl)⟩⟩
        · rw [if_neg hcr]
          refine Agrees.bind (Reaches.write_all hw₄ _) (fun w₅ hw₅ => ih hw₅) fun t => .inr ?_
          rw [not_not.1 hcr, chunk_end, if_neg (by simp [CRLF]), if_neg (by simp [CRLF])]
          rfl
      · exact Agrees.fail _ hr hshort
      · exact Agrees.fail _ hr hshort

theorem agrees_request_body (inner : Nat) (body : RequestBody) (hw : w.Ready) :
    Agrees (copy_request_body inner body) w (take_body body) := by
  cases body with
  | None => exact ⟨_, _, _, Reaches.pure hw (), .inl ⟨rfl, fun t => .inr rfl⟩⟩
  | Length n =>
    obtain ⟨res, rest, b, hr, -, hle, hres⟩ := reaches_copy_body inner n w hw
    refine ⟨res, rest, b, hr, ?_⟩
    have hwhole : b.length = n → ∀ t, take_body (.Length n) (b ++ t) = .whole b t := by
      rintro rfl t
      rw [take_body, if_neg (by rw [List.length_append]; omega), List.take_left, List.drop_left]
    have hpart : take_body (.Length n) b = .short ∨ take_body (.Length n) b = .whole b [] := by
      by_cases hlen : b.length = n
      · exact .inr (by simpa using hwhole hlen [])
      · exact .inl (by rw [take_body, if_pos (by omega)])
    rcases hres with ⟨hok, hlen⟩ | ⟨he, -⟩ | ⟨he, -⟩
    · exact .inl ⟨hok, fun t => .inr (hwhole hlen t)⟩
    · exact .inr ⟨⟨_, he⟩, .inr hpart⟩
    · exact .inr ⟨⟨_, he⟩, .inr hpart⟩
  | Chunked => exact agrees_chunked inner inner hw

/-! ## Requests -/

theorem rfc_split_nil (bodiless : Bytes → Bool) : rfc_split bodiless [] = ([], .whole) := by
  rw [rfc_split]
  rfl

/-- Going on after a head: the recipient takes the body, and the requests after it. -/
def split_after (bodiless : Bytes → Bool) (head s : Bytes) : Taken → List (Bytes × Bytes) × End
  | .short => ([(head, s)], .cut_off)
  | .invalid => ([], .invalid)
  | .whole data r => ((head, data) :: (rfc_split bodiless r).1, (rfc_split bodiless r).2)

theorem rfc_split_head (bodiless : Bytes → Bool) {rl : Bytes} (hrl : Plain rl) {ls : List Bytes}
    (hls : ∀ l ∈ ls, FieldLine l) (s : Bytes) :
    rfc_split bodiless (unlines 13 10 (rl :: ls) ++ CRLF ++ s) =
      match if bodiless (unlines 13 10 (rl :: ls) ++ CRLF) then some .None
        else rfc_body (unlines 13 10 (rl :: ls) ++ CRLF) with
      | none => ([], .invalid)
      | some body => split_after bodiless (unlines 13 10 (rl :: ls) ++ CRLF) s (take_body body s) := by
  generalize hh : unlines 13 10 (rl :: ls) ++ CRLF = head
  have hp : position CRLFCRLF (head ++ s) = some (head.length - 4) := by
    have := Lib.position_block (show (13 : UInt8) ≠ 10 by decide) hrl hls s
    rw [← hh, List.append_assoc]
    refine this.trans ?_
    rw [List.length_append]
    rfl
  have hlen : head.length - 4 + 4 = head.length := by
    rw [← hh, List.length_append, Lib.unlines_cons, List.length_append]
    simp only [CRLF, List.length_cons, List.length_nil]
    omega
  rw [rfc_split]
  generalize position CRLFCRLF (head ++ s) = x at hp ⊢
  subst hp
  dsimp only
  rw [hlen, List.take_left, List.drop_left]
  cases (if bodiless head = true then some RequestBody.None else rfc_body head) with
  | none => rfl
  | some body =>
    dsimp only
    generalize take_body body s = x
    cases x <;> rfl

/-- The recipient finds the requests symphony wrote, or stops at one it cannot frame. -/
structure Found (ws : List (Site × Bytes)) : Prop where
  starts : ∀ x ∈ ws.head?, x.1 = .head
  heads : (rfc_split is_connect (written ws)).1 <+: framed ws
  all : (rfc_split is_connect (written ws)).2 ≠ .invalid → (rfc_split is_connect (written ws)).1 = framed ws

theorem found_nil : Found [] := by
  refine ⟨by simp, ?_, fun _ => ?_⟩
  · rw [written, List.flatMap_nil, rfc_split_nil]
    exact List.nil_prefix
  · rw [written, List.flatMap_nil, rfc_split_nil]
    rfl

/-- One more request in front, once the recipient has read its head. -/
theorem Found.request {head : Bytes} {bs ws : List (Site × Bytes)} (hbs : ∀ x ∈ bs, x.1 = .body) (hws : Found ws)
    {t : Taken} (hsplit : rfc_split is_connect (head ++ (written bs ++ written ws)) = ([], .invalid) ∨
      rfc_split is_connect (head ++ (written bs ++ written ws)) =
        split_after is_connect head (written bs ++ written ws) t)
    (ht : t = .invalid ∨ t = .whole (written bs) (written ws) ∨ (t = .short ∧ ws = [])) :
    Found ((.head, head) :: (bs ++ ws)) := by
  have hw : written ((.head, head) :: (bs ++ ws)) = head ++ (written bs ++ written ws) := by simp [written]
  have hf := framed_request head hbs hws.starts
  have hcases : rfc_split is_connect (head ++ (written bs ++ written ws)) = ([], .invalid) ∨
      ((rfc_split is_connect (head ++ (written bs ++ written ws))).1 =
          (head, written bs) :: (rfc_split is_connect (written ws)).1 ∧
        ((rfc_split is_connect (head ++ (written bs ++ written ws))).2 ≠ .invalid →
          (rfc_split is_connect (written ws)).2 ≠ .invalid)) := by
    rcases hsplit with h | h
    · exact .inl h
    · rw [h]
      rcases ht with rfl | rfl | ⟨rfl, rfl⟩
      · exact .inl rfl
      · exact .inr ⟨rfl, id⟩
      · refine .inr ⟨?_, fun _ => ?_⟩
        · simp [split_after, written, rfc_split_nil]
        · rw [written, List.flatMap_nil, rfc_split_nil]
          simp
  refine ⟨by simp, ?_, fun hne => ?_⟩ <;> rw [hw, hf]
  · rcases hcases with h | ⟨h, -⟩ <;> rw [h]
    · exact List.nil_prefix
    · exact (List.prefix_cons_inj _).2 hws.heads
  · rw [hw] at hne
    rcases hcases with h | ⟨h, hend⟩
    · rw [h] at hne
      exact absurd rfl hne
    · rw [h, hws.all (hend hne)]

/-- The recipient of a rewritten head goes on as the proxy does, or stops. -/
theorem rfc_split_rewritten (hrw : KeepsFraming rewrites) {s block head : Bytes} {n : Nat}
    (hp : position CRLFCRLF s = some n) (hblock : s.take (n + 4) = block)
    (hhead : rewrite_request_head block rewrites = .ok head) {body : RequestBody} (hbody : framed_body block = .ok body)
    (t : Bytes) :
    rfc_split is_connect (head ++ t) = ([], .invalid) ∨
      rfc_split is_connect (head ++ t) = split_after is_connect head t (take_body body t) := by
  obtain ⟨rl, ls, hrl, hls, hlines⟩ := block_lines hp
  rw [hblock] at hlines
  subst hlines
  obtain ⟨hnames, rfl⟩ := rewrite_block hrl hls hhead
  have hh : unlines 13 10 (rl :: inserted_lines rewrites ++ kept rewrites ls ++ [[]]) =
      unlines 13 10 (rl :: (inserted_lines rewrites ++ kept rewrites ls)) ++ CRLF := by
    simp [Lib.unlines_append, CRLF]
  have hfl : ∀ l ∈ inserted_lines rewrites ++ kept rewrites ls, FieldLine l := by
    intro l hl
    rcases List.mem_append.1 hl with hl | hl
    · exact (hrw.lines l hl).1
    · exact hls l (List.mem_of_mem_filter hl)
  have hconnect : is_connect (unlines 13 10 (rl :: (inserted_lines rewrites ++ kept rewrites ls)) ++ CRLF) =
      is_connect (unlines 13 10 (rl :: ls) ++ CRLF) := by
    have h : ∀ ms : List Bytes, unlines 13 10 (rl :: ms) ++ CRLF = rl ++ 13 :: 10 :: (unlines 13 10 ms ++ CRLF) := by
      simp
    rw [h, h, is_connect, is_connect, request_method_line _ _ (by decide) (by decide +kernel),
      request_method_line _ _ (by decide) (by decide +kernel)]
  rw [hh, rfc_split_head is_connect hrl hfl, hconnect]
  unfold framed_body at hbody
  split_ifs at hbody ⊢ with hc
  · cases hbody
    exact .inr rfl
  · rcases rfc_body_agrees hrw hrl hls hnames hbody with h | ⟨b, h, hb⟩
    · rw [hh] at h
      rw [h]
      exact .inl rfl
    · rw [hh] at h
      rw [h]
      right
      dsimp only
      rw [hb]

/-- What is written after a request whose tunnel, if it asks for one, is not accepted: what
the pump goes on to write, or nothing. -/
theorem after_request_found {inner fuel : Nat} (block : Bytes)
    (hnext : ∀ w : World, w.Ready → some true ∉ w.verdicts →
      ∃ ws, (Prog.run handle (rewrite_request_stream rewrites inner fuel) w).2.writes = w.writes ++ ws ∧ Found ws)
    (hw : w.Ready) (hv : some true ∉ w.verdicts) :
    ∃ ws, (after_request rewrites inner fuel block w).2.writes = w.writes ++ ws ∧ Found ws := by
  have htail : some true ∉ w.decided.verdicts := fun h => hv (List.mem_of_mem_tail h)
  rw [after_request]
  split
  · cases hverdict : w.verdicts.head?.join with
    | none => exact ⟨[], (List.append_nil _).symm, found_nil⟩
    | some accepted =>
      cases accepted with
      | true =>
        have hhead := Option.join_eq_some_iff.mp hverdict
        exact absurd (List.mem_of_mem_head? hhead) hv
      | false => exact hnext w.decided hw htail
  · exact hnext w hw hv

/-- What the pump writes, from any world in which no tunnel is accepted. -/
theorem run_found (hrw : KeepsFraming rewrites) (inner fuel : Nat) (hw : w.Ready) (hv : some true ∉ w.verdicts) :
    ∃ ws, (Prog.run handle (rewrite_request_stream rewrites inner fuel) w).2.writes = w.writes ++ ws ∧ Found ws := by
  induction fuel generalizing w with
  | zero => exact ⟨[], (List.append_nil _).symm, found_nil⟩
  | succ fuel ih =>
    obtain ⟨res, c, i, hrun, hci, hne, hres⟩ := run_header_block inner w hw
    have herr : ∀ e, res = .error e →
        ∃ ws, (Prog.run handle (rewrite_request_stream rewrites inner (fuel + 1)) w).2.writes = w.writes ++ ws ∧
          Found ws := by
      rintro e rfl
      exact ⟨[], by rw [run_broken_request rewrites fuel hrun]; rfl, found_nil⟩
    rcases hres with ⟨n, rfl, hp, hcov⟩ | ⟨rfl, -⟩ | ⟨h, -⟩ | ⟨h, -⟩ | ⟨h, -⟩
    · have htake : w.stream.take (n + 4) = c.take (n + 4) := by rw [← hci, List.take_append_of_le_length hcov]
      rw [run_request rewrites inner fuel w c i (n + 4) hrun]
      cases hr : rewrite_request_head (c.take (n + 4)) rewrites with
      | error e => exact ⟨[], rfl, found_nil⟩
      | ok head =>
        cases hbody : framed_body (c.take (n + 4)) with
        | error e => exact ⟨[], rfl, found_nil⟩
        | ok body =>
          dsimp only
          have hsplit := rfc_split_rewritten hrw hp htake hr hbody
          generalize hw₁ : w.announce (c.take (n + 4)) head (c.drop (n + 4)) i = w₁
          have hready : w₁.Ready := by rw [← hw₁]; exact hne
          have hverd : w₁.verdicts = w.verdicts := by rw [← hw₁]; rfl
          have hwr : w₁.writes = w.writes ++ [(.head, head)] := by rw [← hw₁]; rfl
          obtain ⟨res, rest, b, ⟨k, j, bs, hrun', hk, hj, hbs, hb⟩, hres⟩ := agrees_request_body inner body hready
          rw [hrun']
          subst hb
          rcases hres with ⟨rfl, hok⟩ | ⟨⟨e, rfl⟩, hpart⟩
          · -- The body is whole: what follows it is found as before.
            have hv₁ : some true ∉ (w₁.step k j bs).verdicts := by
              change some true ∉ w₁.verdicts
              rw [hverd]
              exact hv
            rw [Prog.andThen_ok]
            have hready' : (w₁.step k j bs).Ready := hj
            obtain ⟨ws, hws, hfound⟩ := after_request_found (c.take (n + 4)) (fun _ => ih) hready' hv₁
            refine ⟨(.head, head) :: (bs ++ ws), ?_, Found.request hbs hfound (hsplit _) ((hok _).imp_right .inl)⟩
            rw [hws, World.step, hwr]
            simp
          · refine ⟨(.head, head) :: (bs ++ []), by rw [Prog.andThen_error]; simp [World.step, hwr], ?_⟩
            refine Found.request hbs found_nil (hsplit _) ?_
            have hnil : written bs ++ written [] = written bs := by simp [written]
            rw [hnil]
            rcases hpart with h | h | h
            · exact .inl h
            · exact .inr (.inr ⟨h, rfl⟩)
            · exact .inr (.inl h)
    · exact ⟨[], by rw [run_no_request rewrites fuel hrun]; rfl, found_nil⟩
    · exact herr _ h
    · exact herr _ h
    · exact herr _ h

/-- **The upstream finds the requests symphony rewrote.** Split what the pump writes,
over any client fragments and any verdicts none of which accepts a tunnel, as
RFC 9112 does, with no body after a CONNECT. The requests found are the ones symphony
framed, in order, up to the first whose framing is not valid for the recipient. -/
theorem upstream_finds_framed_requests {rewrites : List HeaderRewrite} (hrw : KeepsFraming rewrites)
    (input : List Bytes) (hne : ∀ c ∈ input, c ≠ []) (verdicts : List (Option Bool)) (hv : some true ∉ verdicts)
    (inner fuel : Nat) :
    let ws := (Prog.run handle (rewrite_request_stream rewrites inner fuel) (World.init input verdicts)).2.writes
    let found := rfc_split is_connect (written ws)
    found.1 <+: framed ws ∧ (found.2 ≠ .invalid → found.1 = framed ws) := by
  obtain ⟨ws, hws, hfound⟩ := run_found hrw inner fuel (w := World.init input verdicts) hne hv
  rw [hws]
  exact ⟨hfound.heads, hfound.all⟩

/-- A CONNECT that announces a body, and a request behind it whose body is the head of another. -/
def connectWithBody : List Bytes :=
  [bytes "CONNECT a HTTP/1.1\r\nContent-Length: 49\r\n\r\nPOST / HTTP/1.1\r\nContent-Length: 29\r\n\r\n",
    bytes "GET /b HTTP/1.1\r\nX-JA3: 2\r\n\r\n"]

theorem keepsFraming_ownsJa3 : KeepsFraming ownsJa3 := by
  refine ⟨by decide, ?_⟩
  rw [show inserted_lines ownsJa3 = [bytes "X-JA3: 1"] by decide, List.forall_mem_singleton]
  exact ⟨⟨by decide, by decide⟩, bytes "X-JA3", by decide, by decide⟩

theorem upstream_finds_post_after_connect :
    let ws := (Prog.run handle (rewrite_request_stream ownsJa3 150 5)
      (World.init connectWithBody [some false])).2.writes
    (rfc_split is_connect (written ws)).1 = framed ws ∧ (framed ws).map (·.1) =
      [bytes "CONNECT a HTTP/1.1\r\nX-JA3: 1\r\nContent-Length: 49\r\n\r\n",
        bytes "POST / HTTP/1.1\r\nX-JA3: 1\r\nContent-Length: 29\r\n\r\n"] := by
  have h := upstream_finds_framed_requests keepsFraming_ownsJa3 connectWithBody (by decide) [some false]
    (by decide) 150 5
  exact ⟨h.2 (by decide +kernel), by decide +kernel⟩

/-- A recipient that reads a body after the declined CONNECT finds a head symphony has not rewritten. -/
theorem connect_body_hides_request :
    let ws := (Prog.run handle (rewrite_request_stream ownsJa3 150 5)
      (World.init connectWithBody [some false])).2.writes
    (rfc_split (fun _ => false) (written ws)).1.map (·.1) =
      [bytes "CONNECT a HTTP/1.1\r\nX-JA3: 1\r\nContent-Length: 49\r\n\r\n",
        bytes "GET /b HTTP/1.1\r\nX-JA3: 2\r\n\r\n"] ∧
    bytes "GET /b HTTP/1.1\r\nX-JA3: 2\r\n\r\n" ∉ (framed ws).map (·.1) := by
  decide +kernel

end Symphony.Http
