import Symphony.Sni.Records
import Symphony.Sni.Hello
/-!
# Peeking at the ClientHello

`MSG_PEEK` reads a prefix of what the client has sent without consuming it. A
peek that finds `avail` bytes in the socket returns as many of them as the
buffer holds; zero means the client closed. The peeks made before the timeout
are a list, in any pattern.
-/

namespace Symphony.Sni

def MAX_CLIENT_HELLO : Nat := 16 * 1024
def INITIAL_PEEK : Nat := 4096

/-- What a peek finds: bytes received so far, or a socket error. -/
inductive PeekResult where
  | ok (avail : Nat)
  | err
  deriving DecidableEq, Repr

/-- How `peek_reassemble` ends: the timeout fires first, or it returns. -/
inductive Peeked where
  | timedOut
  | ret (r : Option (Bytes × Option Nat))
  deriving DecidableEq, Repr

def peek_reassemble (client : Bytes) (buf_len : Nat) : List PeekResult → Peeked
  | [] => .timedOut
  | .err :: _ => .ret none
  | .ok avail :: peeks =>
    let n := min buf_len (min avail client.length)
    if n = 0 then .ret none
    else match scan_handshake_records (client.take n) with
      | .Invalid => .ret none
      | .Complete hs wire_len => .ret (some (wrap_as_record hs, some wire_len))
      | .NeedMoreRaw target =>
        -- The declared hello exceeds the cap: what is there is parsed, marked incomplete.
        if target > MAX_CLIENT_HELLO then .ret (some (client.take n, none))
        else peek_reassemble client (max buf_len target) peeks

def peek_with_timeout (C : Crypto) (client : Bytes) (peeks : List PeekResult) : PeekInfo :=
  match peek_reassemble client INITIAL_PEEK peeks with
  | .ret (some (buf, hello_len)) =>
    { parse_client_hello C buf with complete := hello_len.isSome, hello_len := hello_len.getD 0 }
  | .ret none => PeekInfo.default
  | .timedOut => PeekInfo.default

/-! ## What a complete peek saw -/

variable {client : Bytes} {peeks : List PeekResult}

/-- A complete result comes from a prefix of the client's bytes, within the cap,
that scans to it. -/
theorem peek_complete {buf_len : Nat} {buf : Bytes} {w : Nat} (hb : buf_len ≤ MAX_CLIENT_HELLO)
    (h : peek_reassemble client buf_len peeks = .ret (some (buf, some w))) :
    ∃ n ≤ MAX_CLIENT_HELLO, ∃ hs, scan_handshake_records (client.take n) = .Complete hs w ∧
      buf = wrap_as_record hs := by
  induction peeks generalizing buf_len with
  | nil => cases h
  | cons p peeks ih =>
    cases p with
    | err => cases h
    | ok avail =>
      simp only [peek_reassemble] at h
      split at h
      · cases h
      · split at h
        · cases h
        · rename_i hs wl hscan
          simp only [Peeked.ret.injEq, Option.some.injEq, Prod.mk.injEq] at h
          exact ⟨_, by omega, hs, h.2 ▸ hscan, h.1.symm⟩
        · split at h
          · simp at h
          · exact ih (by omega) h

theorem completing_pos {m : HelloMessage} {rs : List Record} (hm : m.encode <+: payloads rs) :
    0 < (wire (completing m.encode.length rs)).length := by
  have hc := completing_covers m.encode.length rs hm.length_le
  have hp := hello_pos m
  cases hcs : completing m.encode.length rs with
  | nil =>
    rw [hcs] at hc
    simp only [payloads, List.flatMap_nil, List.length_nil] at hc
    omega
  | cons r cs =>
    rw [wire_cons, List.length_append, encode_length]
    omega

/-- The parser sees exactly the message's body. -/
theorem parse_wrap (m : HelloMessage) :
    Parser.parse_client_hello (wrap_as_record m.encode) = Parser.parse_hello_body m.body := by
  have hskip : ∀ a b p, skip 2 (a :: b :: p) = some p := fun a b p => skip_append [a, b] p
  simp [Parser.parse_client_hello, wrap_as_record, HelloMessage.encode, to_be16, read_u8, read_u16, read_u24, hskip]

/-- A complete peek reports the hello message at the start of the client's bytes. -/
theorem peek_with_timeout_sound (C : Crypto) (h : (peek_with_timeout C client peeks).complete = true) :
    ∃ (m : HelloMessage) (rs : List Record) (trailing : Bytes) (w : Nat), client = wire rs ++ trailing ∧
      m.encode <+: payloads rs ∧ w = (wire (completing m.encode.length rs)).length ∧ w ≤ MAX_CLIENT_HELLO ∧
      peek_with_timeout C client peeks =
        { parse_client_hello C (wrap_as_record m.encode) with complete := true, hello_len := w } := by
  unfold peek_with_timeout at h ⊢
  split at h
  · rename_i buf hello_len hp
    cases hello_len with
    | none => cases h
    | some w =>
      obtain ⟨n, hn, hs, hscan, rfl⟩ := peek_complete (by decide) hp
      obtain ⟨m, rs, trailing, htake, hm, rfl, rfl⟩ := scan_sound hscan
      refine ⟨m, rs, trailing ++ client.drop n, _, ?_, hm, rfl, ?_, by simp⟩
      · rw [← List.append_assoc, ← htake, List.take_append_drop]
      · have hle := completing_length_le m.encode.length rs
        have hlen := congrArg List.length htake
        rw [List.length_take, List.length_append] at hlen
        omega
  · cases h
  · cases h

/-! ## Reassembly of any split -/

/-- Peeks of an open connection: each finds at least one byte. -/
def Open (peeks : List PeekResult) : Prop := ∀ p ∈ peeks, ∃ a, 0 < a ∧ p = .ok a

/-- Peeks that find `w` bytes or more. -/
def arrived (w : Nat) (peeks : List PeekResult) : Nat :=
  peeks.countP fun p => match p with
    | .ok a => w ≤ a
    | .err => false

/-- Past one more of the ends in a list, fewer are left. -/
theorem fewer_ends {l : List Nat} {t : Nat} (ht : t ∈ l) (b : Nat) :
    l.countP (max b t < ·) + (if b < t then 1 else 0) ≤ l.countP (b < ·) := by
  obtain ⟨l₁, l₂, rfl⟩ := List.append_of_mem ht
  have hmono : ∀ l : List Nat, l.countP (max b t < ·) ≤ l.countP (b < ·) := fun l =>
    List.countP_mono_left fun x _ hx => by
      simp only [decide_eq_true_eq] at hx ⊢
      omega
  have h₁ := hmono l₁
  have h₂ := hmono l₂
  simp only [List.countP_append, List.countP_cons, decide_eq_true_eq]
  split_ifs <;> omega

/-- While the hello is within the cap, the peek loop only waits or completes, and every
peek that finds the whole hello either completes or enlarges the buffer to the next end of
a header or a record. -/
theorem peek_reassemble_wire (m : HelloMessage) (rs : List Record) (hm : m.encode <+: payloads rs)
    (trailing : Bytes) (w : Nat) (hw : w = (wire (completing m.encode.length rs)).length)
    (hcap : w ≤ MAX_CLIENT_HELLO) (peeks : List PeekResult) (ho : Open peeks) (buf_len : Nat) (hb : 0 < buf_len) :
    (peek_reassemble (wire rs ++ trailing) buf_len peeks = .timedOut ∨
      peek_reassemble (wire rs ++ trailing) buf_len peeks = .ret (some (wrap_as_record m.encode, some w))) ∧
    (min (w - buf_len) ((ends 0 (completing m.encode.length rs)).countP (buf_len < ·)) < arrived w peeks →
      peek_reassemble (wire rs ++ trailing) buf_len peeks = .ret (some (wrap_as_record m.encode, some w))) := by
  have hle := completing_length_le m.encode.length rs
  have hpos := completing_pos hm
  have htot : w ≤ (wire rs ++ trailing).length := by rw [List.length_append]; omega
  generalize hcl : wire rs ++ trailing = client at htot ⊢
  induction peeks generalizing buf_len with
  | nil => exact ⟨.inl rfl, fun h => by simp [arrived] at h⟩
  | cons p peeks ih =>
    obtain ⟨a, ha, rfl⟩ := ho p (by simp)
    simp only [peek_reassemble]
    rw [if_neg (by omega)]
    generalize hn : min buf_len (min a client.length) = n
    by_cases hge : w ≤ n
    · rw [← hcl, scan_wire_take m rs hm trailing n (hw ▸ hge), ← hw]
      simp
    · obtain ⟨t, ht, h1, h2⟩ := scan_wire_prefix m rs hm trailing n (by omega)
      have h3 := ends_le ht
      rw [Nat.zero_add, ← hw] at h3
      rw [hcl] at h1
      rw [h1]
      simp only
      rw [if_neg (by omega)]
      obtain ⟨i1, i2⟩ := ih (fun q hq => ho q (by simp [hq])) (max buf_len t) (by omega)
      refine ⟨i1, fun harr => i2 ?_⟩
      have hfewer := fewer_ends ht buf_len
      -- A peek that found the whole hello was cut by the buffer, so the buffer grows.
      simp only [arrived, List.countP_cons, decide_eq_true_eq] at harr ⊢
      split at harr <;> split at hfewer <;> omega

theorem peek_with_timeout_complete (C : Crypto) {buf : Bytes} {w : Nat}
    (h : peek_reassemble client INITIAL_PEEK peeks = .ret (some (buf, some w))) :
    peek_with_timeout C client peeks = { parse_client_hello C buf with complete := true, hello_len := w } := by
  simp [peek_with_timeout, h]

/-- Reassembly does not depend on how the message was cut into records, and always makes
progress: one peek more than there are bytes past the first buffer, or header and record
ends, is enough. -/
theorem hello_reassembly (C : Crypto) (m : HelloMessage) (rs : List Record) (trailing : Bytes)
    (hm : m.encode <+: payloads rs) (w : Nat) (hw : w = (wire (completing m.encode.length rs)).length) :
    scan_handshake_records (wire rs ++ trailing) = .Complete m.encode w ∧
    (∀ n < w, ∃ t, scan_handshake_records ((wire rs ++ trailing).take n) = .NeedMoreRaw t ∧ n < t ∧ t ≤ w) ∧
    (w ≤ MAX_CLIENT_HELLO → ∀ peeks, Open peeks →
      (peek_reassemble (wire rs ++ trailing) INITIAL_PEEK peeks = .timedOut ∨
        peek_reassemble (wire rs ++ trailing) INITIAL_PEEK peeks = .ret (some (wrap_as_record m.encode, some w))) ∧
      (min (w - INITIAL_PEEK) (2 * (completing m.encode.length rs).length) < arrived w peeks →
        peek_with_timeout C (wire rs ++ trailing) peeks =
          { parse_client_hello C (wrap_as_record m.encode) with complete := true, hello_len := w })) := by
  refine ⟨by rw [hw]; exact scan_wire m rs hm trailing, fun n hn => ?_, fun hcap peeks ho => ?_⟩
  · rw [hw] at hn ⊢
    obtain ⟨t, ht, h1, h2⟩ := scan_wire_prefix m rs hm trailing n hn
    exact ⟨t, h1, h2, by simpa using ends_le ht⟩
  · obtain ⟨h1, h2⟩ := peek_reassemble_wire m rs hm trailing w hw hcap peeks ho INITIAL_PEEK (by decide)
    refine ⟨h1, fun harr => peek_with_timeout_complete C (h2 ?_)⟩
    have hends : (ends 0 (completing m.encode.length rs)).countP (INITIAL_PEEK < ·) ≤ _ := List.countP_le_length
    rw [length_ends] at hends
    omega

/-- An empty hello in three records, the second of them empty, the third with a byte to spare. -/
def threeRecords : List Record :=
  [⟨3, 1, [1, 0], by decide⟩, ⟨3, 3, [], by decide⟩, ⟨3, 3, [0, 0, 7], by decide⟩]

theorem hello_reassembly_three_records :
    HelloMessage.encode ⟨[], by decide⟩ <+: payloads threeRecords ∧
    peek_with_timeout Crypto.sums (wire threeRecords ++ [9]) [.ok 3, .ok 21] =
      { parse_client_hello Crypto.sums (wrap_as_record [1, 0, 0, 0]) with complete := true, hello_len := 20 } :=
  ⟨by decide, ((hello_reassembly Crypto.sums ⟨[], by decide⟩ threeRecords [9] (by decide) 20 (by decide)).2.2
    (by decide) _ (by simp [Open])).2 (by decide)⟩

end Symphony.Sni
