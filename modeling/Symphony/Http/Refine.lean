import Symphony.Http.Stream
/-!
# The request pump on a whole stream

`split` reads a client's whole byte stream at once: header blocks up to their
blank line, bodies as `framed_body` frames them, and the request the stream breaks
off in. The request pump, which reads fragments into a buffer, refines it: within
its limits, and while no request asks for a tunnel, it writes the rewritten heads
and the bodies of `split`, whatever the fragments are.
-/

namespace Symphony.Http

open Lib (Prog position unlines)

/-! ## Cutting a body off a stream -/

/-- A body at the start of a stream: its bytes, the control lines read in it, and
what follows it. When it ends early, what there is of it and why. -/
structure Cut where
  body : Bytes
  lines : List Bytes
  next : Except IoError Bytes

/-- A cut that some bytes and control lines come before. -/
def Cut.after (c : Cut) (data : Bytes) (ls : List Bytes) : Cut where
  body := data ++ c.body
  lines := ls ++ c.lines
  next := c.next

def cut_trailers (s : Bytes) : Cut :=
  match _h : cut_line s with
  | .error e => ⟨[], [], .error e⟩
  | .ok (line, r) => if line = CRLF then ⟨line, [line], .ok r⟩ else (cut_trailers r).after line [line]
termination_by s.length
decreasing_by
  obtain ⟨rfl, hl⟩ := cut_line_ok _h
  rw [List.length_append]
  omega

def cut_chunked (s : Bytes) : Cut :=
  match _h : cut_line s with
  | .error e => ⟨[], [], .error e⟩
  | .ok (line, r) =>
    match chunk_size line with
    | .error e => ⟨[], [line], .error e⟩
    | .ok size =>
      if size = 0 then (cut_trailers r).after line [line]
      else if r.length < size then ⟨line ++ r, [line], .error closed_mid_body⟩
      else match _h' : cut_line (r.drop size) with
        | .error e => ⟨line ++ r.take size, [line], .error e⟩
        | .ok (crlf, r') =>
          if crlf ≠ CRLF then ⟨line ++ r.take size, [line, crlf], .error (bad "missing CRLF after chunk data")⟩
          else (cut_chunked r').after (line ++ r.take size ++ crlf) [line, crlf]
termination_by s.length
decreasing_by
  have h1 := cut_line_ok _h
  have h2 := congrArg List.length (cut_line_ok _h').1
  rw [List.length_append, List.length_drop] at h2
  rw [h1.1, List.length_append]
  omega

def cut_body : RequestBody → Bytes → Cut
  | .None, s => ⟨[], [], .ok s⟩
  | .Length n, s => if s.length < n then ⟨s, [], .error closed_mid_body⟩ else ⟨s.take n, [], .ok (s.drop n)⟩
  | .Chunked, s => cut_chunked s

variable {w : World} {s : Bytes} {inner n : Nat} {c : Cut} {e : IoError}

variable (rewrites : List HeaderRewrite)

theorem cut_trailers_error (h : cut_line s = .error e) :
    cut_trailers s = ⟨[], [], .error e⟩ := by
  rw [cut_trailers]
  generalize cut_line s = x at h ⊢
  subst h
  rfl

theorem cut_trailers_line {line r : Bytes} (h : cut_line s = .ok (line, r)) :
    cut_trailers s = if line = CRLF then ⟨line, [line], .ok r⟩ else (cut_trailers r).after line [line] := by
  rw [cut_trailers]
  generalize cut_line s = x at h ⊢
  subst h
  rfl

theorem cut_chunked_error (h : cut_line s = .error e) :
    cut_chunked s = ⟨[], [], .error e⟩ := by
  rw [cut_chunked]
  generalize cut_line s = x at h ⊢
  subst h
  rfl

theorem cut_chunked_line {line r : Bytes} (h : cut_line s = .ok (line, r)) :
    cut_chunked s =
      match chunk_size line with
      | .error e => ⟨[], [line], .error e⟩
      | .ok size =>
        if size = 0 then (cut_trailers r).after line [line]
        else if r.length < size then ⟨line ++ r, [line], .error closed_mid_body⟩
        else match cut_line (r.drop size) with
          | .error e => ⟨line ++ r.take size, [line], .error e⟩
          | .ok (crlf, r') =>
            if crlf ≠ CRLF then ⟨line ++ r.take size, [line, crlf], .error (bad "missing CRLF after chunk data")⟩
            else (cut_chunked r').after (line ++ r.take size ++ crlf) [line, crlf] := by
  rw [cut_chunked]
  generalize cut_line s = x at h ⊢
  subst h
  dsimp only
  cases chunk_size line with
  | error e => rfl
  | ok size =>
    dsimp only
    cases cut_line (r.drop size) <;> rfl

/-- A whole body and what follows it make up the stream. -/
theorem cut_trailers_next {r : Bytes} (h : (cut_trailers s).next = .ok r) : s = (cut_trailers s).body ++ r := by
  fun_induction cut_trailers s with
  | case1 => cases h
  | case2 s r' hc =>
    cases h
    exact (cut_line_ok hc).1
  | case3 s line r' hc hcr ih =>
    rw [(cut_line_ok hc).1]
    conv_lhs => rw [ih h]
    simp [Cut.after]

theorem cut_chunked_next {r : Bytes} (h : (cut_chunked s).next = .ok r) : s = (cut_chunked s).body ++ r := by
  fun_induction cut_chunked s with
  | case1 => cases h
  | case2 => cases h
  | case3 s line r' hc hs =>
    rw [(cut_line_ok hc).1]
    conv_lhs => rw [cut_trailers_next h]
    simp [Cut.after]
  | case4 => cases h
  | case5 => cases h
  | case6 => cases h
  | case7 s line r' hc size hs h0 hlen crlf r'' hc' hcr ih =>
    have h1 := (cut_line_ok hc').1
    rw [ih h] at h1
    conv_lhs => rw [(cut_line_ok hc).1, ← List.take_append_drop size r', h1]
    simp [Cut.after]

theorem cut_body_next {b : RequestBody} {r : Bytes} (h : (cut_body b s).next = .ok r) :
    s = (cut_body b s).body ++ r := by
  cases b with
  | None =>
    cases h
    rfl
  | Length n =>
    simp only [cut_body] at h ⊢
    split_ifs at h ⊢
    cases h
    exact (List.take_append_drop n s).symm
  | Chunked => exact cut_chunked_next h

/-! ## Copying a body -/

/-- The program takes the cut's body off the stream and writes it. -/
def Cuts (p : Pump Unit) (w : World) (c : Cut) : Prop :=
  match c.next with
  | .ok r => Reaches p w (.ok ()) r c.body
  | .error e => ∃ rest, Reaches p w (.error (.io e)) rest c.body

theorem Cuts.fail {α : Type} {p : Pump α} (f : α → Pump Unit) {b : Bytes} (ls : List Bytes)
    (h : ∃ rest, Reaches p w (.error (.io e)) rest b) : Cuts (p >>= f) w ⟨b, ls, .error e⟩ := by
  obtain ⟨rest, h⟩ := h
  exact ⟨rest, h.bind_error f⟩

theorem Cuts.bind {α : Type} {p : Pump α} {f : α → Pump Unit} {a : α} {rest b : Bytes} (ls : List Bytes)
    (hp : Reaches p w (.ok a) rest b) (hf : ∀ w' : World, w'.Ready → w'.stream = rest → Cuts (f a) w' c) :
    Cuts (p >>= f) w (c.after b ls) := by
  obtain ⟨w', hw', hs', hbind⟩ := hp.bind
  have h := hf w' hw' hs'
  unfold Cuts at h ⊢
  simp only [Cut.after]
  cases hn : c.next with
  | ok r =>
    simp only [hn] at h ⊢
    exact hbind f h
  | error e =>
    simp only [hn] at h ⊢
    obtain ⟨rest', h⟩ := h
    exact ⟨rest', hbind f h⟩

theorem Cuts.congr {p : Pump Unit} {c' : Cut} (h : Cuts p w c) (hb : c.body = c'.body) (hn : c.next = c'.next) :
    Cuts p w c' := by
  unfold Cuts at h ⊢
  rwa [← hb, ← hn]

theorem Cuts.line (hw : w.Ready) {line r : Bytes} (h : cut_line w.stream = .ok (line, r))
    (hlen : line.length ≤ MAX_CHUNK_LINE) (hfuel : w.stream.length < inner) {f : Bytes → Pump Unit}
    (hf : ∀ w' : World, w'.Ready → w'.stream = r → Cuts (f line) w' c) :
    Cuts (read_control_line inner >>= f) w c :=
  (Cuts.bind [] (control_line_ok hw h hlen hfuel) hf).congr rfl rfl

theorem Cuts.write (hw : w.Ready) (buf : Bytes) (ls : List Bytes) {f : Unit → Pump Unit}
    (hf : ∀ w' : World, w'.Ready → w'.stream = w.stream → Cuts (f ()) w' c) :
    Cuts (write_all .body buf >>= f) w (c.after buf ls) := Cuts.bind ls (Reaches.write_all hw buf) hf

theorem cuts_trailers (fuel : Nat) (hw : w.Ready) (hi : w.stream.length < inner) (hf : w.stream.length < fuel)
    (hl : ∀ l ∈ (cut_trailers w.stream).lines, l.length ≤ MAX_CHUNK_LINE) :
    Cuts (copy_trailers inner fuel) w (cut_trailers w.stream) := by
  induction fuel generalizing w with
  | zero => omega
  | succ fuel ih =>
    rw [copy_trailers]
    cases hc : cut_line w.stream with
    | error e =>
      rw [cut_trailers_error hc]
      exact Cuts.fail _ [] (control_line_error hw hc hi)
    | ok p =>
      obtain ⟨line, r⟩ := p
      have hlen := congrArg List.length (cut_line_ok hc).1
      rw [List.length_append] at hlen
      have hpos := (cut_line_ok hc).2
      rw [cut_trailers_line hc] at hl ⊢
      by_cases hcr : line = CRLF
      · rw [if_pos hcr] at hl ⊢
        refine Cuts.line hw hc (hl line (by simp)) hi fun w' hw' hs' => ?_
        refine (Cuts.write hw' line [line] (c := ⟨[], [], .ok r⟩) fun w'' hw'' hs'' => ?_).congr
          (by simp [Cut.after]) rfl
        rw [if_pos hcr]
        have := Reaches.pure hw'' ()
        rwa [hs'', hs'] at this
      · rw [if_neg hcr] at hl ⊢
        refine Cuts.line hw hc (hl line (by simp [Cut.after])) hi fun w' hw' hs' => ?_
        refine Cuts.write hw' line [line] fun w'' hw'' hs'' => ?_
        rw [hs'] at hs''
        rw [if_neg hcr, ← hs'']
        refine ih hw'' (by rw [hs'']; omega) (by rw [hs'']; omega) fun l h => hl l ?_
        rw [hs''] at h
        simp [Cut.after, h]

theorem Cuts.copy (hw : w.Ready) (hi : w.stream.length < inner) {f : Unit → Pump Unit} (ls : List Bytes)
    (hn : n ≤ w.stream.length) (hf : ∀ w' : World, w'.Ready → w'.stream = w.stream.drop n → Cuts (f ()) w' c) :
    Cuts (copy_body inner n >>= f) w (c.after (w.stream.take n) ls) := by
  obtain ⟨res, rest, b, hr, hsplit, hle, hres⟩ := reaches_copy_body inner n w hw
  have hlen := congrArg List.length hsplit
  rw [List.length_append] at hlen
  rcases hres with ⟨rfl, h⟩ | ⟨rfl, rfl, h⟩ | ⟨rfl, h⟩
  · have hb : w.stream.take n = b := by rw [← hsplit, ← h, List.take_left]
    have hd : w.stream.drop n = rest := by rw [← hsplit, ← h, List.drop_left]
    rw [hb]
    rw [hd] at hf
    exact Cuts.bind ls hr hf
  · rw [List.length_nil] at hlen
    omega
  · omega

theorem copy_body_short (hw : w.Ready) (hi : w.stream.length < inner) (hn : w.stream.length < n) :
    ∃ rest, Reaches (copy_body inner n) w (.error (.io closed_mid_body)) rest w.stream := by
  obtain ⟨res, rest, b, hr, hsplit, hle, hres⟩ := reaches_copy_body inner n w hw
  have hlen := congrArg List.length hsplit
  rw [List.length_append] at hlen
  rcases hres with ⟨rfl, h⟩ | ⟨rfl, rfl, h⟩ | ⟨rfl, h⟩
  · omega
  · rw [List.append_nil] at hsplit
    exact ⟨[], hsplit ▸ hr⟩
  · omega

theorem Cuts.chunk {size : Nat} (hw : w.Ready) (hi : w.stream.length < inner) (hn : size ≤ w.stream.length)
    (line : Bytes) {p : Pump Unit} (hp : ∀ w' : World, w'.Ready → w'.stream = w.stream.drop size → Cuts p w' c) :
    Cuts (do write_all .body line; copy_body inner size; p) w (c.after (line ++ w.stream.take size) [line]) := by
  refine (Cuts.write hw line [] (c := c.after (w.stream.take size) [line]) fun w' hw' hs' => ?_).congr
    (by simp [Cut.after]) rfl
  rw [← hs'] at hi hn hp ⊢
  exact Cuts.copy hw' hi [line] hn hp

theorem cuts_chunked (fuel : Nat) (hw : w.Ready) (hi : w.stream.length < inner) (hf : w.stream.length < fuel)
    (hl : ∀ l ∈ (cut_chunked w.stream).lines, l.length ≤ MAX_CHUNK_LINE) :
    Cuts (copy_chunked_body inner fuel) w (cut_chunked w.stream) := by
  induction fuel generalizing w with
  | zero => omega
  | succ fuel ih =>
    rw [copy_chunked_body]
    cases hc : cut_line w.stream with
    | error e =>
      rw [cut_chunked_error hc]
      exact Cuts.fail _ [] (control_line_error hw hc hi)
    | ok p =>
      obtain ⟨line, r⟩ := p
      have hlen := congrArg List.length (cut_line_ok hc).1
      rw [List.length_append] at hlen
      have hpos := (cut_line_ok hc).2
      rw [cut_chunked_line hc] at hl ⊢
      cases hsize : chunk_size line with
      | error e =>
        simp only [hsize] at hl ⊢
        refine Cuts.line hw hc (hl line (by simp)) hi fun w' hw' _ => ?_
        rw [hsize]
        exact Cuts.fail _ [line] ⟨_, Reaches.fail hw' _⟩
      | ok size =>
        simp only [hsize] at hl ⊢
        have hline : line.length ≤ MAX_CHUNK_LINE := by
          refine hl line ?_
          split_ifs <;> [simp [Cut.after]; simp; skip]
          split <;> [simp; skip]
          split_ifs <;> simp [Cut.after]
        refine Cuts.line hw hc hline hi fun w' hw' hs' => ?_
        have hi' : w'.stream.length < inner := by rw [hs']; omega
        rw [hsize]
        -- The size line goes out; what follows depends on the size and on the rest of the stream.
        change Cuts (write_all .body line >>= fun _ => _) w' _
        by_cases h0 : size = 0
        · simp only [if_pos h0] at hl ⊢
          refine Cuts.write hw' line [line] fun w'' hw'' hs'' => ?_
          rw [hs'] at hs''
          rw [← hs'']
          refine cuts_trailers inner hw'' (by rw [hs'']; omega) (by rw [hs'']; omega) fun l h => hl l ?_
          rw [hs''] at h
          simp [Cut.after, h]
        simp only [if_neg h0] at hl ⊢
        by_cases hshort : r.length < size
        · simp only [if_pos hshort] at hl ⊢
          refine (Cuts.write (c := ⟨r, [], .error closed_mid_body⟩) hw' line [line] fun w'' hw'' hs'' =>
            ?_).congr rfl rfl
          rw [hs'] at hs''
          refine Cuts.fail _ [] ?_
          rw [← hs''] at hshort ⊢
          exact copy_body_short hw'' (by rw [hs'']; omega) hshort
        simp only [if_neg hshort] at hl ⊢
        have hn : size ≤ w'.stream.length := by rw [hs']; omega
        have hdrop : (w'.stream.drop size).length < inner := by rw [List.length_drop]; omega
        rw [← hs'] at hl hlen ⊢
        cases hc' : cut_line (w'.stream.drop size) with
        | error e =>
          refine (Cuts.chunk hw' hi' hn line (c := ⟨[], [], .error e⟩) fun w₃ hw₃ hs₃ => ?_).congr
            (by simp [Cut.after]) rfl
          rw [← hs₃] at hc' hdrop
          exact Cuts.fail _ [] (control_line_error hw₃ hc' hdrop)
        | ok q =>
          obtain ⟨crlf, r'⟩ := q
          have hlen' := congrArg List.length (cut_line_ok hc').1
          rw [List.length_append, List.length_drop] at hlen'
          simp only [hc'] at hl ⊢
          have hcrlf : crlf.length ≤ MAX_CHUNK_LINE := hl crlf (by split_ifs <;> simp [Cut.after])
          by_cases hcr : crlf ≠ CRLF
          · rw [if_pos hcr]
            refine (Cuts.chunk hw' hi' hn line (c := ⟨[], [crlf], .error (bad "missing CRLF after chunk data")⟩)
              fun w₃ hw₃ hs₃ => ?_).congr (by simp [Cut.after]) rfl
            rw [← hs₃] at hc' hdrop
            refine Cuts.line hw₃ hc' hcrlf hdrop fun w₄ hw₄ _ => ?_
            rw [if_pos hcr]
            exact ⟨_, Reaches.fail hw₄ _⟩
          · rw [if_neg hcr] at hl ⊢
            refine (Cuts.chunk hw' hi' hn line (c := (cut_chunked r').after crlf [crlf])
              fun w₃ hw₃ hs₃ => ?_).congr (by simp [Cut.after]) rfl
            rw [← hs₃] at hc' hdrop
            refine Cuts.line hw₃ hc' hcrlf hdrop fun w₄ hw₄ hs₄ => ?_
            rw [if_neg hcr]
            refine Cuts.write hw₄ crlf [crlf] fun w₅ hw₅ hs₅ => ?_
            rw [hs₄] at hs₅
            rw [← hs₅]
            refine ih hw₅ (by rw [hs₅]; omega) (by rw [hs₅]; omega) fun l h => hl l ?_
            rw [hs₅] at h
            simp [Cut.after, h]

theorem cuts_request_body (body : RequestBody) (hw : w.Ready) (hi : w.stream.length < inner)
    (hl : ∀ l ∈ (cut_body body w.stream).lines, l.length ≤ MAX_CHUNK_LINE) :
    Cuts (copy_request_body inner body) w (cut_body body w.stream) := by
  cases body with
  | None => exact Reaches.pure hw ()
  | Length n =>
    simp only [cut_body, copy_request_body]
    split_ifs with h
    · exact copy_body_short hw hi h
    · obtain ⟨res, rest, b, hr, hsplit, hle, hres⟩ := reaches_copy_body inner n w hw
      have hlen := congrArg List.length hsplit
      rw [List.length_append] at hlen
      rcases hres with ⟨rfl, h⟩ | ⟨rfl, rfl, h⟩ | ⟨rfl, h⟩
      · have hb : w.stream.take n = b := by rw [← hsplit, ← h, List.take_left]
        have hd : w.stream.drop n = rest := by rw [← hsplit, ← h, List.drop_left]
        rw [hb, hd]
        exact hr
      · rw [List.length_nil] at hlen
        omega
      · omega
  | Chunked => exact cuts_chunked inner hw hi hi hl

/-! ## Splitting a stream -/

/-- A request of the stream: its header block, the head it is rewritten to, and its body. -/
structure Request where
  block : Bytes
  head : Bytes
  body : Bytes

/-- A stream split into requests: the whole ones, the bytes after them, what goes
out of a request that breaks off there, and how the stream ends; also every
header block and control line on the way. -/
structure Split where
  requests : List Request
  rest : Bytes
  sent : Bytes
  result : Except IoError Unit
  blocks : List Bytes
  lines : List Bytes

def Split.cons (r : Request) (ls : List Bytes) (t : Split) : Split where
  requests := r :: t.requests
  rest := t.rest
  sent := t.sent
  result := t.result
  blocks := r.block :: t.blocks
  lines := ls ++ t.lines

def split (rewrites : List HeaderRewrite) (s : Bytes) : Split :=
  match _h : position CRLFCRLF s with
  | none =>
    { requests := [], rest := s, sent := [], blocks := [], lines := [],
      result :=
        if s = [] then .ok ()
        else .error (if s.length > MAX_HEADER_SIZE then headers_too_long else closed_mid_header) }
  | some n =>
    let block := s.take (n + 4)
    match rewrite_request_head block rewrites, framed_body block with
    | .error e, _ => ⟨[], s, [], .error e, [block], []⟩
    | .ok _, .error e => ⟨[], s, [], .error e, [block], []⟩
    | .ok head, .ok body =>
      match _h' : cut_body body (s.drop (n + 4)) with
      | ⟨data, ls, .error e⟩ => ⟨[], s, head ++ data, .error e, [block], ls⟩
      | ⟨data, ls, .ok r⟩ => (split rewrites r).cons ⟨block, head, data⟩ ls
termination_by s.length
decreasing_by
  have h1 := Lib.position_le (by simp [CRLFCRLF]) _h
  simp only [CRLFCRLF, List.length_cons, List.length_nil] at h1
  have h2 := congrArg List.length (cut_body_next (congrArg Cut.next _h'))
  rw [List.length_append, List.length_drop] at h2
  omega

/-- Everything the reference writes. -/
def Split.output (t : Split) : Bytes := (t.requests.flatMap fun r => r.head ++ r.body) ++ t.sent

/-- The whole requests and what follows them make up the stream, and it ends well
exactly when nothing follows them. -/
theorem split_covers (s : Bytes) :
    s = ((split rewrites s).requests.flatMap fun r => r.block ++ r.body) ++ (split rewrites s).rest ∧
      ((split rewrites s).result = .ok () ↔ (split rewrites s).rest = []) := by
  fun_induction split rewrites s with
  | case1 s h =>
    refine ⟨rfl, ?_⟩
    by_cases hs : s = [] <;> simp [hs]
  | case2 s n h block e he =>
    have hs : s ≠ [] := by rintro rfl; simp [position, CRLFCRLF] at h
    exact ⟨rfl, by simp [hs]⟩
  | case3 s n h block head e he hb =>
    have hs : s ≠ [] := by rintro rfl; simp [position, CRLFCRLF] at h
    exact ⟨rfl, by simp [hs]⟩
  | case4 s n h block head body he hb data ls e hc =>
    have hs : s ≠ [] := by rintro rfl; simp [position, CRLFCRLF] at h
    exact ⟨rfl, by simp [hs]⟩
  | case5 s n h block head body he hb data ls r hc ih =>
    refine ⟨?_, ih.2⟩
    have hr := cut_body_next (congrArg Cut.next hc)
    rw [hc] at hr
    conv_lhs => rw [← List.take_append_drop (n + 4) s, hr, ih.1]
    simp [Split.cons, block]

theorem split_none (h : position CRLFCRLF s = none) :
    split rewrites s = ⟨[], s, [], if s = [] then .ok ()
      else .error (if s.length > MAX_HEADER_SIZE then headers_too_long else closed_mid_header), [], []⟩ := by
  rw [split]
  generalize position CRLFCRLF s = x at h ⊢
  subst h
  rfl

theorem split_some (h : position CRLFCRLF s = some n) :
    split rewrites s =
      match rewrite_request_head (s.take (n + 4)) rewrites, framed_body (s.take (n + 4)) with
      | .error e, _ => ⟨[], s, [], .error e, [s.take (n + 4)], []⟩
      | .ok _, .error e => ⟨[], s, [], .error e, [s.take (n + 4)], []⟩
      | .ok head, .ok body =>
        match cut_body body (s.drop (n + 4)) with
        | ⟨data, ls, .error e⟩ => ⟨[], s, head ++ data, .error e, [s.take (n + 4)], ls⟩
        | ⟨data, ls, .ok r⟩ => (split rewrites r).cons ⟨s.take (n + 4), head, data⟩ ls := by
  rw [split]
  generalize position CRLFCRLF s = x at h ⊢
  subst h
  dsimp only
  cases rewrite_request_head (s.take (n + 4)) rewrites with
  | error e => rfl
  | ok head =>
    cases framed_body (s.take (n + 4)) with
    | error e => rfl
    | ok body =>
      dsimp only
      obtain ⟨data, ls, next⟩ := cut_body body (s.drop (n + 4))
      cases next <;> rfl

/-- The blocks of a split hold all blocks there are to read. -/
theorem block_mem_split (h : position CRLFCRLF s = some n) :
    s.take (n + 4) ∈ (split rewrites s).blocks := by
  rw [split_some rewrites h]
  cases rewrite_request_head (s.take (n + 4)) rewrites with
  | error e => simp
  | ok head =>
    cases framed_body (s.take (n + 4)) with
    | error e => simp
    | ok body =>
      dsimp only
      split <;> simp [Split.cons]

/-- The pump refines the split, from any world. -/
theorem run_split (inner fuel : Nat) (hw : w.Ready) (hi : w.stream.length < inner) (hf : w.stream.length < fuel)
    (hb : ∀ b ∈ (split rewrites w.stream).blocks, b.length ≤ MAX_HEADER_SIZE ∧ is_tunnel_candidate b = false)
    (hl : ∀ l ∈ (split rewrites w.stream).lines, l.length ≤ MAX_CHUNK_LINE) :
    ∃ w', Prog.run handle (rewrite_request_stream rewrites inner fuel) w =
        ((split rewrites w.stream).result.mapError .io, w') ∧
      written w'.writes = written w.writes ++ (split rewrites w.stream).output := by
  induction fuel generalizing w with
  | zero => omega
  | succ fuel ih =>
    obtain ⟨res, c, i, hrun, hci, hne, hres⟩ := run_header_block inner w hw
    rcases hres with ⟨n, rfl, hp, hcov⟩ | ⟨rfl, hs⟩ | ⟨rfl, hp, hs⟩ | ⟨-, n, hp, hlong⟩ | ⟨-, hspin⟩
    · -- A request: its block is buffered, and all of the stream follows it.
      have htake : c.take (n + 4) = w.stream.take (n + 4) := by rw [← hci, List.take_append_of_le_length hcov]
      have hdrop : c.drop (n + 4) ++ i.flatten = w.stream.drop (n + 4) := by
        rw [← hci, List.drop_append_of_le_length hcov]
      obtain ⟨-, hcand⟩ := hb _ (block_mem_split rewrites hp)
      rw [run_request rewrites inner fuel w c i (n + 4) hrun, htake]
      rw [split_some rewrites hp] at hb hl ⊢
      cases hr : rewrite_request_head (w.stream.take (n + 4)) rewrites with
      | error e => exact ⟨_, rfl, by simp [World.step, Split.output]⟩
      | ok head =>
        cases hbody : framed_body (w.stream.take (n + 4)) with
        | error e => exact ⟨_, rfl, by simp [World.step, Split.output]⟩
        | ok body =>
          simp only [hr, hbody] at hb hl ⊢
          generalize hw₁ : w.announce (w.stream.take (n + 4)) head (c.drop (n + 4)) i = w₁
          have hready : w₁.Ready := by rw [← hw₁]; exact hne
          have hs₁ : w₁.stream = w.stream.drop (n + 4) := by rw [← hw₁]; exact hdrop
          have hlen : w₁.stream.length < inner ∧ w₁.stream.length < fuel := by
            have := Lib.position_le (by simp [CRLFCRLF]) hp
            simp only [CRLFCRLF, List.length_cons, List.length_nil] at this
            rw [hs₁, List.length_drop]
            omega
          have hwr : written w₁.writes = written w.writes ++ head := by
            rw [← hw₁]
            simp [World.announce, written]
          rw [← hs₁] at hb hl ⊢
          have hcut := cuts_request_body body hready hlen.1
          cases hc : cut_body body w₁.stream with
          | mk data ls next =>
            rw [hc] at hcut hb hl
            cases next with
            | error e =>
              obtain ⟨rest, k, j, ws, hrun', -, -, -, hws⟩ := hcut hl
              rw [hrun']
              refine ⟨_, rfl, ?_⟩
              simp [Split.output, World.step, written_append, hwr, hws]
            | ok r =>
              dsimp only at hb hl ⊢
              obtain ⟨k, j, ws, hrun', hk, hj, -, hws⟩ := hcut fun l h => hl l (by simp [Split.cons, h])
              rw [hrun', Prog.andThen_ok, after_request, hcand, if_neg Bool.false_ne_true]
              have hr' := congrArg List.length (cut_body_next (congrArg Cut.next hc))
              rw [List.length_append] at hr'
              have hk' : (w₁.step k j ws).stream = r := hk
              obtain ⟨w', hw', hout⟩ := ih (w := w₁.step k j ws) hj (by rw [hk']; omega) (by rw [hk']; omega)
                (by rw [hk']; exact fun b h => hb b (by simp [Split.cons, h]))
                (by rw [hk']; exact fun l h => hl l (by simp [Split.cons, h]))
              rw [hk'] at hw' hout
              refine ⟨w', hw', ?_⟩
              rw [hout]
              simp [Split.output, Split.cons, World.step, written_append, hwr, hws]
    · have hp : position CRLFCRLF w.stream = none := by rw [hs]; rfl
      rw [run_no_request rewrites fuel hrun, split_none rewrites hp, if_pos hs]
      exact ⟨_, rfl, by simp [World.step, Split.output]⟩
    · rw [run_broken_request rewrites fuel hrun, split_none rewrites hp, if_neg hs]
      exact ⟨_, rfl, by simp [World.step, Split.output]⟩
    · have := (hb _ (block_mem_split rewrites hp)).1
      have hle := Lib.position_le (by simp [CRLFCRLF]) hp
      simp only [CRLFCRLF, List.length_cons, List.length_nil] at hle
      rw [List.length_take] at this
      omega
    · omega

/-- The blocks of a split are blocks of lines. -/
theorem split_blocks (s : Bytes) : ∀ b ∈ (split rewrites s).blocks,
    ∃ rl ls, Plain rl ∧ (∀ l ∈ ls, FieldLine l) ∧ b = unlines 13 10 (rl :: ls) ++ CRLF := by
  fun_induction split rewrites s with
  | case1 s h => simp
  | case2 s n h block e he => simpa using block_lines h
  | case3 s n h block head e he hb => simpa using block_lines h
  | case4 s n h block head body he hb data ls e hc => simpa using block_lines h
  | case5 s n h block head body he hb data ls r hc ih =>
    intro b hmem
    rcases List.mem_cons.1 hmem with rfl | hmem
    · exact block_lines h
    · exact ih b hmem

/-- **The request pump refines the whole-stream split.** However the client's bytes
are cut into reads, while every header block and control line is within its limit
and no request asks for a tunnel, the pump writes exactly the rewritten heads and
the bodies of the split stream, up to the point where the stream breaks off. It
ends well exactly when the stream ends between two requests. A rewritten head is
the request line, symphony's lines and the client's other lines, in order. -/
theorem rewrite_request_stream_refines (rewrites : List HeaderRewrite) (input : List Bytes)
    (hne : ∀ c ∈ input, c ≠ []) (verdicts : List (Option Bool)) (inner fuel : Nat)
    (hinner : input.flatten.length < inner) (hfuel : input.flatten.length < fuel)
    (hblocks : ∀ b ∈ (split rewrites input.flatten).blocks,
      b.length ≤ MAX_HEADER_SIZE ∧ is_tunnel_candidate b = false)
    (hlines : ∀ l ∈ (split rewrites input.flatten).lines, l.length ≤ MAX_CHUNK_LINE) :
    let run := Prog.run handle (rewrite_request_stream rewrites inner fuel) (World.init input verdicts)
    let ref := split rewrites input.flatten
    run.1 = ref.result.mapError .io ∧ written run.2.writes = ref.output ∧
      input.flatten = (ref.requests.flatMap fun r => r.block ++ r.body) ++ ref.rest ∧
      (run.1 = .ok () ↔ ref.rest = []) ∧
      ∀ b ∈ ref.blocks, ∃ rl ls, b = unlines 13 10 (rl :: ls) ++ CRLF ∧ Plain rl ∧ (∀ l ∈ ls, FieldLine l) ∧
        ∀ head, rewrite_request_head b rewrites = .ok head →
          head = unlines 13 10 (rl :: inserted_lines rewrites ++ kept rewrites ls ++ [[]]) := by
  have hstream : (World.init input verdicts).stream = input.flatten := rfl
  obtain ⟨w', hrun, hout⟩ := run_split rewrites inner fuel (w := World.init input verdicts) hne hinner hfuel
    hblocks hlines
  obtain ⟨hcover, hend⟩ := split_covers rewrites input.flatten
  rw [hstream] at hrun hout
  intro run ref
  have hrun : run = (ref.result.mapError .io, w') := hrun
  refine ⟨by rw [hrun], by rw [hrun]; exact hout, hcover, ?_, fun b hb => ?_⟩
  · rw [hrun, ← hend]
    change ref.result.mapError Stop.io = .ok () ↔ ref.result = .ok ()
    cases ref.result <;> simp [Except.mapError]
  · obtain ⟨rl, ls, hrl, hls, rfl⟩ := split_blocks rewrites _ b hb
    exact ⟨rl, ls, rfl, hrl, hls, fun head hh => (rewrite_block hrl hls hh).2⟩

/-- A chunked request with a forged header and one behind it, cut inside line ends and data. -/
def pipelined : List Bytes :=
  [bytes "POST /a HTTP/1.1\r\nx-ja3: forged\r\nTransfer-Encoding: chunked\r", bytes "\n\r\n3\r\nab",
    bytes "c\r\n0\r\n\r\nGET /b HTTP/1.1\r\n\r", bytes "\n"]

theorem rewrite_request_stream_pipelined :
    let run := Prog.run handle (rewrite_request_stream [⟨bytes "X-JA3", some (bytes "769")⟩] 100 100)
      (World.init pipelined [])
    run.1 = .ok () ∧ written run.2.writes = bytes (
      "POST /a HTTP/1.1\r\nX-JA3: 769\r\nTransfer-Encoding: chunked\r\n\r\n3\r\nabc\r\n0\r\n\r\n" ++
        "GET /b HTTP/1.1\r\nX-JA3: 769\r\n\r\n") := by
  have h := rewrite_request_stream_refines [⟨bytes "X-JA3", some (bytes "769")⟩] pipelined (by decide) [] 100 100
    (by decide +kernel) (by decide +kernel) (by decide +kernel) (by decide +kernel)
  refine ⟨h.1.trans ?_, h.2.1.trans ?_⟩ <;> decide +kernel

end Symphony.Http
