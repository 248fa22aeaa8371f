import Symphony.Rust.Basic
/-!
# TLS records around a ClientHello

`scan_handshake_records` walks the peeked bytes as TLS records and collects the
handshake payload. On a ClientHello cut into records in any way it returns the
message itself, and on a shorter prefix it names a byte count that is really
needed (`scan_wire`, `scan_wire_prefix`). Nothing else is reported complete
(`scan_sound`).
-/

namespace Symphony.Sni

/-- Result of scanning the buffered records for a ClientHello. -/
inductive RecordScan where
  | Invalid
  | NeedMoreRaw (target : Nat)
  | Complete (hs : Bytes) (wire_len : Nat)
  deriving DecidableEq, Repr

/-- `4 + hs_len`, once the 4-byte handshake header is there. -/
def declared_len : Bytes → Option Nat
  | _ :: a :: b :: c :: _ => some (4 + (a.toNat * 65536 + b.toNat * 256 + c.toNat))
  | _ => none

/-- The loop of `scan_handshake_records`. -/
def scan_loop (raw : Bytes) (offset : Nat) (hs_buf : Bytes) (declared_hs_len : Option Nat) : RecordScan :=
  if declared_hs_len.any (· ≤ hs_buf.length) then
    .Complete (hs_buf.take (declared_hs_len.getD 0)) offset
  else if raw[offset]?.any (· != 0x16) then .Invalid
  else if raw.length < offset + 5 then .NeedMoreRaw (offset + 5)
  else
    let record_len := be16 (raw.getD (offset + 3) 0) (raw.getD (offset + 4) 0)
    let record_end := offset + 5 + record_len
    if raw.length < record_end then .NeedMoreRaw record_end
    else
      let hs_buf := hs_buf ++ (raw.drop (offset + 5)).take record_len
      -- The message type is checked, and the declared length learnt, once.
      if declared_hs_len.isNone && !hs_buf.isEmpty then
        if hs_buf.head? != some 0x01 then .Invalid
        else scan_loop raw record_end hs_buf (declared_len hs_buf)
      else scan_loop raw record_end hs_buf declared_hs_len
termination_by raw.length - offset

def scan_handshake_records (raw : Bytes) : RecordScan := scan_loop raw 0 [] none

/-- The reassembled handshake bytes as the single record `parse_client_hello` reads. -/
def wrap_as_record (hs_bytes : Bytes) : Bytes :=
  [0x16, 0x03, 0x01] ++ to_be16 (hs_bytes.length % 65536) ++ hs_bytes

/-! ## ClientHello messages on the wire -/

/-- A handshake record: any legacy version and a payload that fits its length field. -/
structure Record where
  major : UInt8
  minor : UInt8
  payload : Bytes
  fits : payload.length < 65536

def Record.encode (r : Record) : Bytes :=
  [0x16, r.major, r.minor] ++ to_be16 r.payload.length ++ r.payload

def wire (rs : List Record) : Bytes := rs.flatMap Record.encode

def payloads (rs : List Record) : Bytes := rs.flatMap Record.payload

/-- A ClientHello handshake message: type 1, a 3-byte length, that many bytes. -/
structure HelloMessage where
  body : Bytes
  fits : body.length < 0x1000000

def HelloMessage.encode (m : HelloMessage) : Bytes :=
  [1, UInt8.ofNat (m.body.length / 65536), UInt8.ofNat (m.body.length / 256), UInt8.ofNat m.body.length] ++ m.body

/-- The records up to the one that brings the payload to `n` bytes. -/
def completing (n : Nat) : List Record → List Record
  | [] => []
  | r :: rs => if n ≤ r.payload.length then [r] else r :: completing (n - r.payload.length) rs

/-- Where the header and the payload of each record end. -/
def ends (offset : Nat) : List Record → List Nat
  | [] => []
  | r :: rs => (offset + 5) :: (offset + 5 + r.payload.length) :: ends (offset + 5 + r.payload.length) rs

variable {hs raw : Bytes} {offset : Nat} {m : HelloMessage} {rs : List Record}

variable (n : Nat) (r : Record)

@[simp] theorem wire_cons (rs : List Record) : wire (r :: rs) = r.encode ++ wire rs := rfl

@[simp] theorem payloads_cons (rs : List Record) : payloads (r :: rs) = r.payload ++ payloads rs := rfl

@[simp] theorem encode_length : r.encode.length = 5 + r.payload.length := by
  simp [Record.encode, to_be16]
  omega

@[simp] theorem hello_length (m : HelloMessage) : m.encode.length = 4 + m.body.length := by
  simp [HelloMessage.encode]
  omega

theorem hello_pos (m : HelloMessage) : 0 < m.encode.length := by
  rw [hello_length]
  omega

theorem completing_length_le (rs : List Record) : (wire (completing n rs)).length ≤ (wire rs).length := by
  induction rs generalizing n with
  | nil => exact Nat.le_refl _
  | cons r rs ih =>
    rw [completing]
    split
    · simp [wire]
    · have := ih (n - r.payload.length)
      simp only [wire_cons, List.length_append]
      omega

theorem completing_split (rs : List Record) : ∃ rest, rs = completing n rs ++ rest := by
  induction rs generalizing n with
  | nil => exact ⟨[], rfl⟩
  | cons r rs ih =>
    rw [completing]
    split
    · exact ⟨rs, rfl⟩
    · obtain ⟨rest, h⟩ := ih (n - r.payload.length)
      exact ⟨rest, by rw [List.cons_append, ← h]⟩

theorem completing_idem (rs : List Record) : completing n (completing n rs) = completing n rs := by
  induction rs generalizing n with
  | nil => rfl
  | cons r rs ih =>
    by_cases h : n ≤ r.payload.length
    · simp [completing, h]
    · simp [completing, h, ih]

theorem completing_covers (rs : List Record) (h : n ≤ (payloads rs).length) :
    n ≤ (payloads (completing n rs)).length := by
  induction rs generalizing n with
  | nil => exact h
  | cons r rs ih =>
    rw [payloads_cons, List.length_append] at h
    rw [completing]
    split
    · simpa [payloads] using ‹n ≤ r.payload.length›
    · have := ih (n - r.payload.length) (by omega)
      rw [payloads_cons, List.length_append]
      omega

/-- The completing records already carry the whole message. -/
theorem prefix_completing {m : Bytes} (h : m <+: payloads rs) :
    m <+: payloads (completing m.length rs) := by
  obtain ⟨rest, hr⟩ := completing_split m.length rs
  have hc := completing_covers m.length rs h.length_le
  refine List.prefix_of_prefix_length_le h ?_ hc
  conv_rhs => rw [hr]
  simp [payloads]

/-- The declared length of the message's own header is the message's length. -/
theorem declared_len_hello (m : HelloMessage) (hs rest : Bytes) (h : hs ++ rest = m.encode) (hlen : 4 ≤ hs.length) :
    declared_len hs = some m.encode.length := by
  match hs, hlen with
  | a :: b :: c :: d :: hs, _ =>
    simp only [List.cons_append, HelloMessage.encode, List.cons.injEq, List.nil_append] at h
    obtain ⟨-, rfl, rfl, rfl, -⟩ := h
    have hf := m.fits
    simp only [declared_len, UInt8.toNat_ofNat', hello_length, Option.some.injEq]
    omega

theorem declared_len_short (h : hs.length < 4) : declared_len hs = none := by
  match hs with
  | [] | [_] | [_, _] | [_, _, _] => rfl
  | _ :: _ :: _ :: _ :: _ => simp at h; omega

theorem declared_len_append {n : Nat} (h : declared_len hs = some n) (rest : Bytes) :
    declared_len (hs ++ rest) = some n := by
  match hs with
  | [] | [_] | [_, _] | [_, _, _] => cases h
  | _ :: _ :: _ :: _ :: _ => exact h

/-! ## One record of the scan -/

theorem not_complete {rest : Bytes} (h : hs ++ rest = m.encode) (hr : rest ≠ []) :
    ¬ (declared_len hs).any (· ≤ hs.length) := by
  by_cases h4 : 4 ≤ hs.length
  · have hlen := congrArg List.length h
    have : 0 < rest.length := List.length_pos_iff.2 hr
    simp only [List.length_append] at hlen
    rw [declared_len_hello m hs rest h h4]
    simp only [Option.any_some, decide_eq_true_eq]
    omega
  · simp [declared_len_short (Nat.lt_of_not_le h4)]

/-- Reading one whole record: its payload is appended and the scan goes on. -/
theorem scan_loop_record {tail : Bytes} (hraw : raw.drop offset = r.encode ++ tail)
    (hnc : ¬ (declared_len hs).any (· ≤ hs.length)) (h1 : hs ++ r.payload ≠ [] → (hs ++ r.payload).head? = some 1) :
    scan_loop raw offset hs (declared_len hs) =
      scan_loop raw (offset + r.encode.length) (hs ++ r.payload) (declared_len (hs ++ r.payload)) ∧
    raw.drop (offset + r.encode.length) = tail := by
  have hlen : raw.length = offset + (r.encode.length + tail.length) := by
    have := congrArg List.length hraw
    simp only [List.length_drop, List.length_append, encode_length] at this ⊢
    omega
  have hget : ∀ i, raw[offset + i]? = (r.encode ++ tail)[i]? := fun i => by rw [← hraw, List.getElem?_drop]
  have h0 : raw[offset]? = some 0x16 := by simpa [Record.encode] using hget 0
  have h3 : raw[offset + 3]? = some (UInt8.ofNat (r.payload.length / 256)) := by
    simpa [Record.encode, to_be16] using hget 3
  have h4 : raw[offset + 4]? = some (UInt8.ofNat r.payload.length) := by
    simpa [Record.encode, to_be16] using hget 4
  have hpay : (raw.drop (offset + 5)).take r.payload.length = r.payload := by
    rw [← List.drop_drop, hraw]
    simp [Record.encode, to_be16]
  have htail : raw.drop (offset + r.encode.length) = tail := by
    rw [← List.drop_drop, hraw, List.drop_left]
  refine ⟨?_, htail⟩
  have hbe : be16 (raw.getD (offset + 3) 0) (raw.getD (offset + 4) 0) = r.payload.length := by
    rw [List.getD_eq_getElem?_getD, List.getD_eq_getElem?_getD, h3, h4]
    exact be16_to_be16 r.fits
  simp only [encode_length] at hlen ⊢
  rw [scan_loop, if_neg hnc, h0, if_neg (by decide), if_neg (by omega)]
  simp only [hbe]
  rw [if_neg (by omega), hpay, show offset + 5 + r.payload.length = offset + (5 + r.payload.length) by omega]
  cases hd : declared_len hs with
  | some n => rw [declared_len_append hd]; rfl
  | none =>
    by_cases hne : hs ++ r.payload = []
    · simp [hne, declared_len]
    · simp [h1 hne, hne]

/-! ## The whole scan -/

theorem head_of_hello {rest : Bytes} (h : m.encode <+: hs ++ rest) (hne : hs ≠ []) :
    hs.head? = some 1 := by
  obtain ⟨t, ht⟩ := h
  match hs, hne with
  | a :: hs, _ =>
    simp only [HelloMessage.encode, List.cons_append, List.cons.injEq] at ht
    simp [← ht.1]

/-- `hs` and the message are prefixes of one list, so the shorter starts the longer. -/
theorem split_of_prefix {rest : Bytes} (h : m.encode <+: hs ++ rest) (hlt : hs.length < m.encode.length) :
    ∃ t, t ≠ [] ∧ hs ++ t = m.encode := by
  obtain ⟨t, ht⟩ := List.prefix_of_prefix_length_le (List.prefix_append hs rest) h (Nat.le_of_lt hlt)
  refine ⟨t, ?_, ht⟩
  rintro rfl
  rw [List.append_nil] at ht
  rw [ht] at hlt
  exact Nat.lt_irrefl _ hlt

theorem scan_loop_done {rest : Bytes} (h : m.encode <+: hs ++ rest) (hge : m.encode.length ≤ hs.length) :
    scan_loop raw offset hs (declared_len hs) = .Complete m.encode offset := by
  obtain ⟨t, ht⟩ := List.prefix_of_prefix_length_le h (List.prefix_append hs rest) hge
  have hd : declared_len hs = some m.encode.length := by
    rw [← ht]
    exact declared_len_append (declared_len_hello m m.encode [] (by simp) (by simp)) t
  rw [scan_loop, if_pos (by simp only [hd, Option.any_some, decide_eq_true_eq]; exact hge), hd, ← ht]
  simp

/-- From any point inside the message, the scan reads the records up to the one
that completes it. The induction is on the records not read yet. -/
theorem scan_loop_wire (m : HelloMessage) (rs : List Record) (raw tail hs : Bytes) (offset : Nat)
    (hraw : raw.drop offset = wire rs ++ tail) (hpre : m.encode <+: hs ++ payloads rs)
    (hlt : hs.length < m.encode.length) :
    scan_loop raw offset hs (declared_len hs) =
      .Complete m.encode (offset + (wire (completing (m.encode.length - hs.length) rs)).length) := by
  induction rs generalizing hs offset with
  | nil =>
    have := hpre.length_le
    simp only [payloads, List.flatMap_nil, List.append_nil] at this
    omega
  | cons r rs ih =>
    obtain ⟨t, hne, ht⟩ := split_of_prefix hpre hlt
    rw [payloads_cons, ← List.append_assoc] at hpre
    rw [wire_cons, List.append_assoc] at hraw
    obtain ⟨hstep, hraw'⟩ := scan_loop_record r hraw (not_complete ht hne) (head_of_hello hpre)
    rw [hstep]
    by_cases hge : m.encode.length ≤ (hs ++ r.payload).length
    · rw [scan_loop_done hpre hge, completing, if_pos (by rw [List.length_append] at hge; omega)]
      simp [wire]
    · rw [ih _ _ hraw' hpre (by omega), completing, if_neg (by rw [List.length_append] at hge; omega)]
      rw [wire_cons, List.length_append, List.length_append, Nat.sub_sub, Nat.add_assoc]

theorem length_ends (offset : Nat) (rs : List Record) : (ends offset rs).length = 2 * rs.length := by
  induction rs generalizing offset with
  | nil => rfl
  | cons r rs ih =>
    simp only [ends, List.length_cons, ih]
    omega

theorem ends_le {t : Nat} (h : t ∈ ends offset rs) : t ≤ offset + (wire rs).length := by
  induction rs generalizing offset with
  | nil => cases h
  | cons r rs ih =>
    rw [wire_cons, List.length_append, encode_length]
    rcases List.mem_cons.1 h with rfl | h
    · omega
    · rcases List.mem_cons.1 h with rfl | h
      · omega
      · have := ih h
        omega

/-- A buffer that ends before the completing record asks for more, up to the next end of a
header or a record. -/
theorem scan_loop_wire_prefix (m : HelloMessage) (rs : List Record) (raw tail hs : Bytes) (offset k : Nat)
    (hoff : offset ≤ raw.length) (hraw : raw.drop offset = (wire rs ++ tail).take k)
    (hpre : m.encode <+: hs ++ payloads rs) (hlt : hs.length < m.encode.length)
    (hk : k < (wire (completing (m.encode.length - hs.length) rs)).length) :
    ∃ t ∈ ends offset (completing (m.encode.length - hs.length) rs),
      scan_loop raw offset hs (declared_len hs) = .NeedMoreRaw t ∧ raw.length < t := by
  induction rs generalizing hs offset k with
  | nil => simp [completing, wire] at hk
  | cons r rs ih =>
    obtain ⟨t, hne, ht⟩ := split_of_prefix hpre hlt
    have hnc := not_complete ht hne
    rw [payloads_cons, ← List.append_assoc] at hpre
    rw [wire_cons, List.append_assoc] at hraw
    -- Every completing prefix starts with this record.
    have hfirst : ∀ t, t = offset + 5 ∨ t = offset + 5 + r.payload.length →
        t ∈ ends offset (completing (m.encode.length - hs.length) (r :: rs)) := by
      rintro t (rfl | rfl) <;> rw [completing] <;> split <;> simp [ends]
    by_cases hkr : k < r.encode.length
    · have hdrop : raw.drop offset = r.encode.take k := by
        rw [hraw, List.take_append_of_le_length (Nat.le_of_lt hkr)]
      have hlen : raw.length = offset + k := by
        have := congrArg List.length hdrop
        simp only [List.length_drop, List.length_take] at this
        omega
      have hget : ∀ i, raw[offset + i]? = (r.encode.take k)[i]? := fun i => by rw [← hdrop, List.getElem?_drop]
      have h0 : ¬ raw[offset]?.any (· != 0x16) := by
        have := hget 0
        rw [Nat.add_zero] at this
        rw [this]
        rcases k with _ | k <;> simp [Record.encode]
      rw [scan_loop, if_neg hnc, if_neg h0]
      simp only [encode_length] at hkr
      by_cases h5 : k < 5
      · exact ⟨offset + 5, hfirst _ (.inl rfl), by rw [if_pos (by omega)], by omega⟩
      · have h3 : raw[offset + 3]? = some (UInt8.ofNat (r.payload.length / 256)) := by
          rw [hget 3, List.getElem?_take_of_lt (by omega)]
          simp [Record.encode, to_be16]
        have h4 : raw[offset + 4]? = some (UInt8.ofNat r.payload.length) := by
          rw [hget 4, List.getElem?_take_of_lt (by omega)]
          simp [Record.encode, to_be16]
        have hbe : be16 (raw.getD (offset + 3) 0) (raw.getD (offset + 4) 0) = r.payload.length := by
          rw [List.getD_eq_getElem?_getD, List.getD_eq_getElem?_getD, h3, h4]
          exact be16_to_be16 r.fits
        rw [if_neg (by omega)]
        simp only [hbe]
        exact ⟨offset + 5 + r.payload.length, hfirst _ (.inr rfl), by rw [if_pos (by omega)], by omega⟩
    · have hge : r.encode.length ≤ k := Nat.le_of_not_lt hkr
      rw [List.take_append, List.take_of_length_le hge] at hraw
      obtain ⟨hstep, hraw'⟩ := scan_loop_record r hraw hnc (head_of_hello hpre)
      have hcomp : ¬ m.encode.length - hs.length ≤ r.payload.length := by
        intro hle
        rw [completing, if_pos hle] at hk
        simp only [wire, List.flatMap_cons, List.flatMap_nil, List.append_nil] at hk
        omega
      rw [completing, if_neg hcomp, wire_cons, List.length_append] at hk
      rw [completing, if_neg hcomp]
      have hsub : m.encode.length - (hs ++ r.payload).length = m.encode.length - hs.length - r.payload.length := by
        rw [List.length_append, Nat.sub_sub]
      have hroom : offset + r.encode.length ≤ raw.length := by
        have := congrArg List.length hraw
        simp only [List.length_drop, List.length_append] at this
        omega
      rw [hstep]
      obtain ⟨t, ht, h1, h2⟩ := ih _ _ (k - r.encode.length) hroom hraw' hpre
        (by rw [List.length_append]; omega) (by rw [hsub]; omega)
      rw [hsub, encode_length, ← Nat.add_assoc] at ht
      exact ⟨t, List.mem_cons_of_mem _ (List.mem_cons_of_mem _ ht), h1, h2⟩

theorem scan_wire (m : HelloMessage) (rs : List Record) (hm : m.encode <+: payloads rs) (trailing : Bytes) :
    scan_handshake_records (wire rs ++ trailing) =
      .Complete m.encode (wire (completing m.encode.length rs)).length := by
  have := scan_loop_wire m rs (wire rs ++ trailing) trailing [] 0 rfl (by simpa using hm) (hello_pos m)
  simpa [scan_handshake_records, declared_len] using this

theorem scan_wire_prefix (m : HelloMessage) (rs : List Record) (hm : m.encode <+: payloads rs) (trailing : Bytes)
    (n : Nat) (hn : n < (wire (completing m.encode.length rs)).length) :
    ∃ t ∈ ends 0 (completing m.encode.length rs),
      scan_handshake_records ((wire rs ++ trailing).take n) = .NeedMoreRaw t ∧ n < t := by
  have hle := completing_length_le m.encode.length rs
  have hlen : ((wire rs ++ trailing).take n).length = n := by
    rw [List.length_take, List.length_append]
    omega
  obtain ⟨t, ht, h1, h2⟩ := scan_loop_wire_prefix m rs ((wire rs ++ trailing).take n) trailing [] 0 n
    (Nat.zero_le _) rfl (by simpa using hm) (hello_pos m) (by simpa using hn)
  exact ⟨t, by simpa using ht, by simpa [scan_handshake_records, declared_len] using h1, hlen ▸ h2⟩

theorem scan_wire_take (m : HelloMessage) (rs : List Record) (hm : m.encode <+: payloads rs) (trailing : Bytes)
    (n : Nat) (hn : (wire (completing m.encode.length rs)).length ≤ n) :
    scan_handshake_records ((wire rs ++ trailing).take n) =
      .Complete m.encode (wire (completing m.encode.length rs)).length := by
  obtain ⟨rest, hr⟩ := completing_split m.encode.length rs
  have hw : wire rs = wire (completing m.encode.length rs) ++ wire rest := by
    conv_lhs => rw [hr]
    simp [wire]
  rw [hw, List.append_assoc, List.take_append, List.take_of_length_le hn,
    scan_wire m _ (prefix_completing hm), completing_idem]

/-! ## What the scan accepts -/

/-- Bytes with a hello's header are a hello message and what follows it. -/
theorem hello_of_declared {n : Nat} (h1 : hs.head? = some 1) (hd : declared_len hs = some n) (hn : n ≤ hs.length) :
    ∃ m : HelloMessage, m.encode = hs.take n := by
  match hs, hd with
  | t :: a :: b :: c :: rest, hd =>
    simp only [declared_len, Option.some.injEq] at hd
    simp only [List.head?_cons, Option.some.injEq] at h1
    have ha := a.toNat_lt
    have hb := b.toNat_lt
    have hc := c.toNat_lt
    simp only [List.length_cons] at hn
    obtain ⟨k, rfl⟩ : ∃ k, n = k + 4 := ⟨n - 4, by omega⟩
    have hk : (rest.take k).length = a.toNat * 65536 + b.toNat * 256 + c.toNat := by
      rw [List.length_take]
      omega
    refine ⟨⟨rest.take k, by omega⟩, ?_⟩
    simp only [HelloMessage.encode, hk]
    rw [ofNat_eq_of_mod (b := a) (by omega), ofNat_eq_of_mod (b := b) (by omega),
      ofNat_eq_of_mod (b := c) (by omega), h1]
    simp

/-- A whole record at `offset`, read back. -/
theorem record_at {len : Nat} (h0 : ¬ raw[offset]?.any (· != 0x16))
    (hlen : len = be16 (raw.getD (offset + 3) 0) (raw.getD (offset + 4) 0)) (hend : offset + 5 + len ≤ raw.length) :
    ∃ r : Record, r.payload = (raw.drop (offset + 5)).take len ∧ (raw.drop offset).take (5 + len) = r.encode := by
  match hd : raw.drop offset with
  | [] | [_] | [_, _] | [_, _, _] | [_, _, _, _] =>
    have := congrArg List.length hd
    simp only [List.length_drop, List.length_cons, List.length_nil] at this
    omega
  | t :: maj :: min :: l1 :: l0 :: tail =>
    have hget : ∀ i, raw[offset + i]? = (t :: maj :: min :: l1 :: l0 :: tail)[i]? :=
      fun i => by rw [← hd, List.getElem?_drop]
    have ht : t = 0x16 := by
      have := hget 0
      rw [Nat.add_zero] at this
      rw [this] at h0
      simpa using h0
    have h3 : raw.getD (offset + 3) 0 = l1 := by rw [List.getD_eq_getElem?_getD, hget 3]; rfl
    have h4 : raw.getD (offset + 4) 0 = l0 := by rw [List.getD_eq_getElem?_getD, hget 4]; rfl
    have hdrop : raw.drop (offset + 5) = tail := by rw [← List.drop_drop, hd]; rfl
    have hl : (tail.take len).length = len := by
      have := congrArg List.length hdrop
      rw [List.length_drop] at this
      rw [List.length_take]
      omega
    rw [h3, h4] at hlen
    have hlt := be16_lt l1 l0
    refine ⟨⟨maj, min, tail.take len, by omega⟩, by rw [hdrop], ?_⟩
    have hbe : to_be16 (tail.take len).length = [l1, l0] := by rw [hl, hlen, to_be16_be16]
    simp only [Record.encode, hbe]
    rw [ht, Nat.add_comm 5]
    simp

theorem take_record {len : Nat} {r : Record} (hraw : raw.take offset = wire rs)
    (hr : (raw.drop offset).take (5 + len) = r.encode) : raw.take (offset + 5 + len) = wire (rs ++ [r]) := by
  rw [Nat.add_assoc, List.take_add, hraw, hr]
  simp [wire]

/-- What the scan reports complete is a hello message carried by records. The
records read so far are carried along. -/
theorem scan_loop_sound (raw : Bytes) (offset : Nat) (hs : Bytes) (d : Option Nat) (out : Bytes) (w : Nat)
    (rs : List Record) (hraw : raw.take offset = wire rs) (hoff : offset ≤ raw.length) (hhs : hs = payloads rs)
    (hd : d = declared_len hs) (h1 : hs ≠ [] → hs.head? = some 1) (h : scan_loop raw offset hs d = .Complete out w) :
    ∃ (m : HelloMessage) (rs : List Record) (trailing : Bytes), raw = wire rs ++ trailing ∧ out = m.encode ∧
      m.encode <+: payloads rs := by
  fun_induction scan_loop raw offset hs d generalizing rs with
  | case1 offset hs d hc =>
    simp only [RecordScan.Complete.injEq] at h
    obtain ⟨rfl, rfl⟩ := h
    cases d with
    | none => simp at hc
    | some n =>
      have hn : n ≤ hs.length := by simpa using hc
      have hne : hs ≠ [] := by rintro rfl; cases hd
      obtain ⟨m, hm⟩ := hello_of_declared (h1 hne) hd.symm hn
      refine ⟨m, rs, raw.drop offset, ?_, hm.symm, ?_⟩
      · rw [← hraw, List.take_append_drop]
      · rw [hm, ← hhs]
        exact List.take_prefix _ _
  | case2 | case3 | case4 | case5 => cases h
  | case6 offset hs d _ h0 _ len e he hs' hnew h1' ih =>
    obtain ⟨r, hp, hr⟩ := record_at h0 rfl (Nat.le_of_not_lt he)
    exact ih (rs ++ [r]) (take_record hraw hr) (Nat.le_of_not_lt he) (by simp [hs', hhs, hp, payloads, len]) rfl
      (fun _ => by simpa using h1') h
  | case7 offset hs d _ h0 _ len e he hs' hold ih =>
    obtain ⟨r, hp, hr⟩ := record_at h0 rfl (Nat.le_of_not_lt he)
    refine ih (rs ++ [r]) (take_record hraw hr) (Nat.le_of_not_lt he) (by simp [hs', hhs, hp, payloads, len]) ?_ ?_ h
    · cases hdl : declared_len hs with
      | some n => rw [hd, hdl, declared_len_append hdl]
      | none =>
        -- Nothing was read yet: the record was empty.
        have hnil : hs' = [] := by simpa [hd, hdl] using hold
        rw [hd, hdl, hnil]
        rfl
    · intro hne
      cases hdl : declared_len hs with
      | some n =>
        have hhd := h1 (by rintro rfl; cases hdl)
        simp [hs', List.head?_append, hhd]
      | none => exact absurd (by simpa [hd, hdl] using hold) hne

theorem scan_sound {out : Bytes} {w : Nat} (h : scan_handshake_records raw = .Complete out w) :
    ∃ (m : HelloMessage) (rs : List Record) (trailing : Bytes), raw = wire rs ++ trailing ∧
      m.encode <+: payloads rs ∧ out = m.encode ∧ w = (wire (completing m.encode.length rs)).length := by
  obtain ⟨m, rs, trailing, rfl, rfl, hm⟩ := scan_loop_sound raw 0 [] none out w [] rfl (Nat.zero_le _) rfl rfl
    (fun h => absurd rfl h) h
  rw [scan_wire m rs hm, RecordScan.Complete.injEq] at h
  exact ⟨m, rs, trailing, rfl, hm, rfl, h.2.symm⟩

end Symphony.Sni
