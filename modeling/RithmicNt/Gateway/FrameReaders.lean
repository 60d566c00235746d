import Mathlib.Data.List.Forall2
import RithmicNt.Gateway.Frames
import RithmicNt.Lib.Arrivals

/-! The readers of the gateway's frames: `decode_frame` on a buffer, the reader of the Rust client, which
waits for the bytes it needs, and the Python connection, whose buffer outlives a receive that timed out.
All of them read off a stream what `decodeAll` reads off its bytes. -/

namespace RithmicNt.Gateway.FrameReaders

open RithmicNt.Lib RithmicNt.Gateway.Calls

/-! ### Frames -/

inductive FrameError
  | truncatedLengthPrefix
  | frameTooLarge (len : Nat)
  | truncatedPayload (need got : Nat)
  deriving DecidableEq, Repr

/-- `encode_frame`; the length has to be a `u32` first. -/
def encodeFrame (payload : Bytes) : Except FrameError Bytes :=
  if payload.length ≥ 2 ^ 32 then .error (.frameTooLarge (2 ^ 32 - 1))
  else if payload.length > maxFrameLen then .error (.frameTooLarge payload.length)
  else .ok (be32 payload.length ++ payload)

/-- `u32::from_be_bytes`, and `struct.unpack("!I", ..)` of the Python client. -/
def fromBe (l : Bytes) : Nat := l.foldl (fun n b => n * 256 + b.toNat) 0

/-- `decode_frame`: a payload and how many bytes its frame takes. -/
def decodeFrame (buf : Bytes) : Except FrameError (Bytes × Nat) :=
  if buf.length < 4 then .error .truncatedLengthPrefix
  else
    let len := fromBe (buf.take 4)
    if len > maxFrameLen then .error (.frameTooLarge len)
    else
      let rest := buf.drop 4
      if rest.length < len then .error (.truncatedPayload len rest.length)
      else .ok (rest.take len, 4 + len)

theorem encodeFrame_eq_ok {payload frame : Bytes} :
    encodeFrame payload = .ok frame ↔
      payload.length ≤ maxFrameLen ∧ frame = be32 payload.length ++ payload := by
  unfold encodeFrame
  have hmax : maxFrameLen < 2 ^ 32 := by decide
  split
  · next hlong => exact ⟨nofun, fun h => absurd h.1 (by omega)⟩
  · split
    · next hlarge => exact ⟨nofun, fun h => absurd h.1 (by omega)⟩
    · next hfits => exact ⟨fun h => ⟨by omega, (Except.ok.inj h).symm⟩, fun h => by rw [h.2]⟩

theorem fromBe_be32 {n : Nat} (h : n < 2 ^ 32) : fromBe (be32 n) = n := by
  simp only [fromBe, be32, List.foldl_cons, List.foldl_nil, UInt8.toNat_ofNat',
    Nat.shiftRight_eq_div_pow]
  omega

theorem length_be32 (n : Nat) : (be32 n).length = 4 := rfl

theorem decodeFrame_be32 {n : Nat} (h : n < 2 ^ 32) (rest : Bytes) :
    decodeFrame (be32 n ++ rest) =
      if n > maxFrameLen then .error (.frameTooLarge n)
      else if rest.length < n then .error (.truncatedPayload n rest.length)
      else .ok (rest.take n, 4 + n) := by
  have htake : (be32 n ++ rest).take 4 = be32 n := List.take_left' (length_be32 n)
  have hdrop : (be32 n ++ rest).drop 4 = rest := List.drop_left' (length_be32 n)
  unfold decodeFrame
  rw [if_neg (by rw [List.length_append, length_be32]; omega), htake, hdrop, fromBe_be32 h]

theorem decodeFrame_encodeFrame {payload frame : Bytes} (h : encodeFrame payload = .ok frame)
    (rest : Bytes) : decodeFrame (frame ++ rest) = .ok (payload, frame.length) := by
  obtain ⟨hle, rfl⟩ := encodeFrame_eq_ok.mp h
  have hmax : maxFrameLen < 2 ^ 32 := by decide
  rw [List.append_assoc, decodeFrame_be32 (by omega), if_neg (by omega),
    if_neg (by rw [List.length_append]; omega), List.take_left, List.length_append, length_be32]

/-- What `decode_frame` accepts. -/
theorem decodeFrame_eq_ok {buf payload : Bytes} {n : Nat} (h : decodeFrame buf = .ok (payload, n)) :
    4 ≤ n ∧ n ≤ buf.length ∧ fromBe (buf.take 4) ≤ maxFrameLen ∧ n = 4 + fromBe (buf.take 4) ∧
      payload = (buf.drop 4).take (fromBe (buf.take 4)) := by
  unfold decodeFrame at h
  simp only at h
  split at h
  · cases h
  · split at h
    · cases h
    · split at h
      · cases h
      · cases h
        rw [List.length_drop] at *
        exact ⟨by omega, by omega, by omega, rfl, rfl⟩

/-- More bytes do not change a frame that is there. -/
theorem decodeFrame_append {buf payload : Bytes} {n : Nat} (h : decodeFrame buf = .ok (payload, n))
    (more : Bytes) : decodeFrame (buf ++ more) = .ok (payload, n) := by
  obtain ⟨hfour, hle, hmax, hn, rfl⟩ := decodeFrame_eq_ok h
  unfold decodeFrame
  rw [List.take_append_of_le_length (by omega), List.drop_append_of_le_length (by omega),
    if_neg (by rw [List.length_append]; omega)]
  simp only
  rw [if_neg (by omega), if_neg (by rw [List.length_append, List.length_drop]; omega),
    List.take_append_of_le_length (by rw [List.length_drop]; omega), hn]

/-! ### A whole stream -/

/-- Repeated `decode_frame`: the payloads, the bytes that are left, and why the next decode fails. -/
def decodeAll (buf : Bytes) : List Bytes × Bytes × FrameError :=
  match _hdecode : decodeFrame buf with
  | .ok (payload, n) => ((payload :: (decodeAll (buf.drop n)).1), (decodeAll (buf.drop n)).2)
  | .error e => ([], buf, e)
termination_by buf.length
decreasing_by
  all_goals
    have := decodeFrame_eq_ok _hdecode
    rw [List.length_drop]
    omega

theorem decodeAll_of_ok {buf payload : Bytes} {n : Nat} (h : decodeFrame buf = .ok (payload, n)) :
    decodeAll buf = (payload :: (decodeAll (buf.drop n)).1, (decodeAll (buf.drop n)).2) := by
  rw [decodeAll]
  split <;> next hdecode => cases h.symm.trans hdecode <;> rfl

theorem decodeAll_of_error {buf : Bytes} {e : FrameError} (h : decodeFrame buf = .error e) :
    decodeAll buf = ([], buf, e) := by
  rw [decodeAll]
  split <;> next hdecode => cases h.symm.trans hdecode <;> rfl

theorem decodeAll_nil : decodeAll [] = ([], [], .truncatedLengthPrefix) := decodeAll_of_error rfl

/-- A buffer may be decoded in two goes. -/
theorem decodeAll_append (buf more : Bytes) :
    (decodeAll (buf ++ more)).1 =
      (decodeAll buf).1 ++ (decodeAll ((decodeAll buf).2.1 ++ more)).1 := by
  induction hlength : buf.length using Nat.strongRecOn generalizing buf with
  | _ length ih =>
    cases hdecode : decodeFrame buf with
    | error e => rw [decodeAll_of_error hdecode, List.nil_append]
    | ok r =>
      obtain ⟨payload, n⟩ := r
      obtain ⟨hfour, hle, -⟩ := decodeFrame_eq_ok hdecode
      rw [decodeAll_of_ok hdecode, decodeAll_of_ok (decodeFrame_append hdecode more),
        List.drop_append_of_le_length hle]
      simp only [List.cons_append]
      rw [ih _ (by rw [List.length_drop]; omega) (buf.drop n) rfl]

/-- A receiver that decodes what it can after each arrival. -/
def decodeArrivals (buf : Bytes) : Wire UInt8 → List Bytes
  | [] => []
  | arrival :: w =>
    let decoded := decodeAll (buf ++ arrival.content)
    decoded.1 ++ decodeArrivals decoded.2.1 w

theorem decodeAll_rest (buf : Bytes) : (decodeAll (decodeAll buf).2.1).1 = [] := by
  have h := decodeAll_append buf []
  rw [List.append_nil, List.append_nil] at h
  simpa using h

theorem decodeArrivals_eq {buf : Bytes} (hbuf : (decodeAll buf).1 = []) (w : Wire UInt8) :
    decodeArrivals buf w = (decodeAll (buf ++ w.content)).1 := by
  induction w generalizing buf with
  | nil => rw [Wire.content_nil, List.append_nil, hbuf, decodeArrivals]
  | cons arrival w ih =>
    rw [decodeArrivals, ih (decodeAll_rest _), Wire.content_cons, ← List.append_assoc,
      ← decodeAll_append]

theorem decodeAll_frames {payloads frames : List Bytes}
    (h : List.Forall₂ (fun p f => encodeFrame p = .ok f) payloads frames) (tail : Bytes) :
    decodeAll (frames.flatten ++ tail) = (payloads ++ (decodeAll tail).1, (decodeAll tail).2) := by
  induction h with
  | nil => rfl
  | cons hhead _ ih =>
    rw [List.flatten_cons, List.append_assoc, decodeAll_of_ok (decodeFrame_encodeFrame hhead _),
      List.drop_left, ih]
    rfl

/-- A frame that is not all there is not decoded. -/
theorem decodeFrame_of_prefix {payload frame t : Bytes} (h : encodeFrame payload = .ok frame)
    (ht : t <+: frame) (hne : t ≠ frame) :
    decodeFrame t = .error .truncatedLengthPrefix ∨
      ∃ need got, decodeFrame t = .error (.truncatedPayload need got) := by
  obtain ⟨more, hmore⟩ := ht
  obtain ⟨hle, hframe⟩ := encodeFrame_eq_ok.mp h
  have hmax : maxFrameLen < 2 ^ 32 := by decide
  by_cases hshort : t.length < 4
  · exact .inl (if_pos hshort)
  · have hhead : t.take 4 = be32 payload.length := by
      have htake : (t ++ more).take 4 = t.take 4 := List.take_append_of_le_length (by omega)
      rw [← htake, hmore, hframe]
      exact List.take_left' (length_be32 payload.length)
    have hsplit : t = be32 payload.length ++ t.drop 4 := by rw [← hhead, List.take_append_drop]
    have hlength : t.length + more.length = 4 + payload.length := by
      rw [← List.length_append, hmore, hframe, List.length_append, length_be32]
    have hmissing : more ≠ [] := by
      rintro rfl
      exact hne (by rw [← hmore, List.append_nil])
    have hmissing := List.length_pos_iff.mpr hmissing
    refine .inr ⟨payload.length, (t.drop 4).length, ?_⟩
    rw [hsplit, decodeFrame_be32 (by omega), if_neg (by omega),
      if_pos (by rw [List.length_drop]; omega), ← hsplit]

/-! ### The Rust client -/

/-- What one read of a frame gives; `decode` of the payload may itself fail. -/
inductive Read (φ : Type)
  | frame (f : φ)
  | timeout
  | eof
  | tooLarge (n : Nat)
  deriving DecidableEq, Repr

section

variable {φ : Type} (decode : Bytes → φ)

/-- `read_frame` of the client runtime. -/
def readFrame (w : Wire UInt8) : Read φ × Wire UInt8 :=
  match w.readExact 4 with
  | none => (.eof, [])
  | some (len, w) =>
    let n := fromBe len
    if n > maxFrameLen then (.tooLarge n, w)
    else match w.readExact n with
      | none => (.eof, [])
      | some (buf, w) => (.frame (decode buf), w)

/-- The read that fails where a stream ends or turns wrong. -/
def FrameError.end : FrameError → Read φ
  | .frameTooLarge n => .tooLarge n
  | .truncatedLengthPrefix | .truncatedPayload .. => .eof

theorem FrameError.end_ne_timeout (e : FrameError) : (e.end : Read φ) ≠ .timeout := by
  cases e <;> exact nofun

theorem FrameError.end_ne_frame (e : FrameError) (f : φ) : e.end ≠ .frame f := by
  cases e <;> exact nofun

/-- A read of the Rust client does what `decode_frame` says of the bytes to come. -/
theorem readFrame_spec (w : Wire UInt8) : match decodeFrame w.content with
    | .ok (payload, n) => ∃ w', readFrame decode w = (.frame (decode payload), w') ∧
        w'.content = w.content.drop n
    | .error (.frameTooLarge n) => ∃ w', readFrame decode w = (.tooLarge n, w') ∧
        w'.content = w.content.drop 4
    | .error _ => readFrame decode w = (.eof, []) := by
  have hprefix := w.readExact_spec 4
  unfold readFrame decodeFrame
  by_cases hshort : w.content.length < 4
  · rw [if_neg (by omega)] at hprefix
    rw [if_pos hshort, hprefix]
  · rw [if_pos (by omega)] at hprefix
    obtain ⟨w1, hread, hcontent⟩ := hprefix
    rw [if_neg hshort, hread]
    simp only
    by_cases hlarge : fromBe (w.content.take 4) > maxFrameLen
    · rw [if_pos hlarge, if_pos hlarge]
      exact ⟨w1, rfl, hcontent⟩
    · rw [if_neg hlarge, if_neg hlarge, ← hcontent]
      have hpayload := w1.readExact_spec (fromBe (w.content.take 4))
      by_cases hmissing : w1.content.length < fromBe (w.content.take 4)
      · rw [if_neg (by omega)] at hpayload
        rw [if_pos hmissing, hpayload]
      · rw [if_pos (by omega)] at hpayload
        obtain ⟨w2, hread, hrest⟩ := hpayload
        rw [if_neg hmissing, hread]
        exact ⟨w2, rfl, by rw [hrest, hcontent, List.drop_drop]⟩

theorem readFrame_frame {w w' : Wire UInt8} {f : φ} (h : readFrame decode w = (.frame f, w')) :
    w'.content.length < w.content.length := by
  have hspec := readFrame_spec decode w
  split at hspec
  · next payload n hdecode =>
    obtain ⟨v, hread, hv⟩ := hspec
    cases h.symm.trans hread
    have := decodeFrame_eq_ok hdecode
    rw [hv, List.length_drop]
    omega
  · obtain ⟨v, hread, -⟩ := hspec
    cases h.symm.trans hread
  · cases h.symm.trans hspec

/-- Repeated `read_frame`, up to the first that fails. -/
def readFrames (w : Wire UInt8) : List (Read φ) :=
  match _hread : readFrame decode w with
  | (.frame f, w') => .frame f :: readFrames w'
  | (r, _) => [r]
termination_by w.content.length
decreasing_by exact readFrame_frame decode _hread

/-- The reads of a stream, from its payloads and its end. -/
def readsOf (r : List Bytes × Bytes × FrameError) : List (Read φ) :=
  r.1.map (fun p => .frame (decode p)) ++ [r.2.2.end]

theorem readFrames_eq (w : Wire UInt8) : readFrames decode w = readsOf decode (decodeAll w.content) := by
  induction hlength : w.content.length using Nat.strongRecOn generalizing w with
  | _ length ih =>
    have hspec := readFrame_spec decode w
    rw [readFrames]
    split at hspec
    · next payload n hdecode =>
      obtain ⟨w', hread, hcontent⟩ := hspec
      have hrest := ih _ (hlength ▸ readFrame_frame decode hread) w' rfl
      rw [decodeAll_of_ok hdecode, ← hcontent]
      split
      · next hread' =>
        cases hread.symm.trans hread'
        rw [hrest]
        rfl
      · next hne hread' =>
        cases hread.symm.trans hread'
        exact absurd rfl (hne _)
    · next n hdecode =>
      obtain ⟨w', hread, -⟩ := hspec
      rw [decodeAll_of_error hdecode]
      split <;> next hread' => cases hread.symm.trans hread' <;> rfl
    · next e hlarge hdecode =>
      rw [decodeAll_of_error hdecode]
      have hend : (FrameError.end e : Read φ) = .eof := by
        cases e with
        | frameTooLarge n => exact absurd rfl (hlarge n)
        | truncatedLengthPrefix => rfl
        | truncatedPayload need got => rfl
      split <;> next hread' => cases hspec.symm.trans hread' <;> simp [readsOf, hend]

end

/-! ### The Python connection -/

/-- A `FramedConnection` with an open socket: what it received and has not read yet. -/
structure Conn where
  rx : Bytes
  sock : Wire UInt8

/-- The bytes that the connection has still to read. -/
def Conn.stream (c : Conn) : Bytes := c.rx ++ c.sock.content

inductive Filled
  | filled
  | timeout
  | eof
  deriving DecidableEq, Repr

/-- `_fill`: a timeout leaves what arrived in the buffer. -/
def Conn.fill (n : Nat) (c : Conn) : Filled × Conn :=
  if n ≤ c.rx.length then (.filled, c)
  else match _hrecv : c.sock.recv (max (n - c.rx.length) 65536) with
    | (.closed, sock) => (.eof, { c with sock })
    | (.timeout, sock) => (.timeout, { c with sock })
    | (.bytes chunk, sock) => Conn.fill n ⟨c.rx ++ chunk, sock⟩
termination_by c.sock.size
decreasing_by
  have hpos : 0 < max (n - c.rx.length) 65536 := by omega
  rcases Wire.recv_cases hpos c.sock with ⟨h, -⟩ | ⟨v, h, -, hlt⟩ | ⟨m, v, h, -, -, -, hlt⟩ <;>
    (rw [_hrecv] at h; cases h <;> exact hlt)

/-- What `_fill` does to the connection: no byte is lost. -/
inductive Conn.Fills (n : Nat) (c : Conn) : Filled × Conn → Prop
  | filled {c' : Conn} : c'.stream = c.stream → c'.sock.size ≤ c.sock.size → n ≤ c'.rx.length →
      Conn.Fills n c (.filled, c')
  | timeout {c' : Conn} : c'.stream = c.stream → c'.sock.size < c.sock.size →
      Conn.Fills n c (.timeout, c')
  | eof {c' : Conn} : c.stream.length < n → Conn.Fills n c (.eof, c')

theorem Conn.fill_of_le {n : Nat} {c : Conn} (h : n ≤ c.rx.length) : c.fill n = (.filled, c) := by
  rw [Conn.fill, if_pos h]

theorem Conn.fill_spec (n : Nat) (c : Conn) : c.Fills n (c.fill n) := by
  induction hsize : c.sock.size using Nat.strongRecOn generalizing c with
  | _ size ih =>
    by_cases hready : n ≤ c.rx.length
    · rw [Conn.fill_of_le hready]
      exact .filled rfl le_rfl hready
    · rw [Conn.fill, if_neg hready]
      have hpos : 0 < max (n - c.rx.length) 65536 := by omega
      rcases Wire.recv_cases hpos c.sock with
        ⟨h, hsock⟩ | ⟨sock, h, hcontent, hlt⟩ | ⟨chunk, sock, h, -, -, hcontent, hlt⟩
      · split <;> next hrecv =>
          cases h.symm.trans hrecv <;> exact .eof (by
            rw [Conn.stream, hsock, Wire.content_nil, List.append_nil]
            omega)
      · split <;> next hrecv =>
          cases h.symm.trans hrecv <;> exact .timeout (by simp only [Conn.stream, hcontent]) hlt
      · split
        · next hrecv => cases h.symm.trans hrecv
        · next hrecv => cases h.symm.trans hrecv
        · next hrecv =>
          cases h.symm.trans hrecv
          have hstream : Conn.stream ⟨c.rx ++ chunk, sock⟩ = c.stream := by
            simp only [Conn.stream, hcontent, List.append_assoc]
          have hrest := ih sock.size (by omega) ⟨c.rx ++ chunk, sock⟩ rfl
          generalize Conn.fill n ⟨c.rx ++ chunk, sock⟩ = r at hrest
          cases hrest with
          | filled hsame hle hn => exact .filled (hsame.trans hstream) (le_trans hle hlt.le) hn
          | timeout hsame hless => exact .timeout (hsame.trans hstream) (lt_trans hless hlt)
          | eof hshort => exact .eof (hstream ▸ hshort)

section

variable {φ : Type} (decode : Bytes → φ)

/-- `_read_frame`. -/
def Conn.readFrame (c : Conn) : Read φ × Conn :=
  match c.fill 4 with
  | (.timeout, c) => (.timeout, c)
  | (.eof, c) => (.eof, c)
  | (.filled, c) =>
    let length := fromBe (c.rx.take 4)
    if length > maxFrameLen then (.tooLarge length, c)
    else match c.fill (4 + length) with
      | (.timeout, c) => (.timeout, c)
      | (.eof, c) => (.eof, c)
      | (.filled, c) =>
        (.frame (decode ((c.rx.drop 4).take length)), { c with rx := c.rx.drop (4 + length) })

/-- A read of the Python connection: a timeout loses nothing, and any other outcome is what
`decode_frame` says of the bytes to come. -/
inductive Conn.Reads (c : Conn) : Read φ × Conn → Prop
  | timeout {c' : Conn} : c'.stream = c.stream → c'.sock.size < c.sock.size →
      Conn.Reads c (.timeout, c')
  | frame {c' : Conn} {payload : Bytes} {n : Nat} : decodeFrame c.stream = .ok (payload, n) →
      c'.stream = c.stream.drop n → c'.sock.size ≤ c.sock.size →
      Conn.Reads c (.frame (decode payload), c')
  | failed {c' : Conn} {e : FrameError} {r : Read φ} : decodeFrame c.stream = .error e →
      r = e.end → Conn.Reads c (r, c')

theorem Conn.readFrame_spec (c : Conn) : c.Reads decode (c.readFrame decode) := by
  unfold Conn.readFrame
  cases hfirst : c.fill 4 with
  | mk r c1 =>
    have hfills := c.fill_spec 4
    rw [hfirst] at hfills
    cases hfills with
    | timeout hsame hlt => exact .timeout hsame hlt
    | eof hshort => exact .failed (e := .truncatedLengthPrefix) (if_pos hshort) rfl
    | filled hsame hle hfour =>
      have htake : c.stream.take 4 = c1.rx.take 4 := by
        rw [← hsame, Conn.stream, List.take_append_of_le_length hfour]
      have hlong : ¬ c.stream.length < 4 := by
        rw [← hsame, Conn.stream, List.length_append]
        omega
      simp only
      by_cases hlarge : fromBe (c1.rx.take 4) > maxFrameLen
      · rw [if_pos hlarge]
        refine .failed (e := .frameTooLarge _) ?_ rfl
        unfold decodeFrame
        rw [if_neg hlong, htake]
        simp only [if_pos hlarge]
      · rw [if_neg hlarge]
        cases hsecond : c1.fill (4 + fromBe (c1.rx.take 4)) with
        | mk r c2 =>
          have hfills := c1.fill_spec (4 + fromBe (c1.rx.take 4))
          rw [hsecond] at hfills
          cases hfills with
          | timeout hsame' hlt => exact .timeout (hsame'.trans hsame) (lt_of_lt_of_le hlt hle)
          | eof hshort =>
            refine .failed (e := .truncatedPayload (fromBe (c1.rx.take 4))
              (c.stream.drop 4).length) ?_ rfl
            rw [hsame] at hshort
            unfold decodeFrame
            rw [if_neg hlong, htake]
            simp only [if_neg hlarge]
            rw [if_pos (by rw [List.length_drop]; omega)]
          | filled hsame' hle' hn =>
            have hstream : c.stream = c2.rx ++ c2.sock.content := by rw [← hsame, ← hsame']; rfl
            have hlength : c.stream.length = c2.rx.length + c2.sock.content.length := by
              rw [hstream, List.length_append]
            refine .frame (n := 4 + fromBe (c1.rx.take 4)) ?_ ?_ (le_trans hle' hle)
            · unfold decodeFrame
              rw [if_neg hlong, htake]
              simp only [if_neg hlarge]
              rw [if_neg (by rw [List.length_drop]; omega), hstream,
                List.drop_append_of_le_length (by omega),
                List.take_append_of_le_length (by rw [List.length_drop]; omega)]
            · rw [hstream, Conn.stream, List.drop_append_of_le_length hn]

/-- What is left to do for the connection. -/
def Conn.left (c : Conn) : Nat := c.stream.length + c.sock.size

theorem Conn.Reads.left_lt {c c' : Conn} {r : Read φ} (h : c.Reads decode (r, c'))
    (hgoes : r = .timeout ∨ ∃ f, r = .frame f) : c'.left < c.left := by
  unfold Conn.left
  cases h with
  | timeout hsame hlt =>
    rw [hsame]
    omega
  | frame hdecode hrest hle =>
    have := decodeFrame_eq_ok hdecode
    rw [hrest, List.length_drop]
    omega
  | failed hdecode hend =>
    rcases hgoes with rfl | ⟨f, rfl⟩
    · exact absurd hend.symm (FrameError.end_ne_timeout _)
    · exact absurd hend.symm (FrameError.end_ne_frame _ f)

/-- Repeated `_read_frame`, a timed-out read followed by another, up to the first that fails. -/
def Conn.readFrames (c : Conn) : List (Read φ) :=
  match _hread : c.readFrame decode with
  | (.timeout, c') => .timeout :: Conn.readFrames c'
  | (.frame f, c') => .frame f :: Conn.readFrames c'
  | (r, _) => [r]
termination_by c.left
decreasing_by
  · have h := c.readFrame_spec decode
    rw [_hread] at h
    exact h.left_lt decode (.inl rfl)
  · have h := c.readFrame_spec decode
    rw [_hread] at h
    exact h.left_lt decode (.inr ⟨f, rfl⟩)

def Read.isTimeout : Read φ → Bool
  | .timeout => true
  | _ => false

theorem Conn.readFrames_eq (c : Conn) :
    (c.readFrames decode).filter (fun r => !r.isTimeout) = readsOf decode (decodeAll c.stream) := by
  induction hleft : c.left using Nat.strongRecOn generalizing c with
  | _ left ih =>
    have hspec := c.readFrame_spec decode
    rw [Conn.readFrames]
    split
    · next c' hread =>
      rw [hread] at hspec
      have hrest := ih _ (hleft ▸ hspec.left_lt decode (.inl rfl)) c' rfl
      rw [List.filter_cons_of_neg (by simp [Read.isTimeout]), hrest]
      cases hspec with
      | timeout hsame => rw [hsame]
      | failed hdecode hend => exact absurd hend.symm (FrameError.end_ne_timeout _)
    · next f c' hread =>
      rw [hread] at hspec
      have hrest := ih _ (hleft ▸ hspec.left_lt decode (.inr ⟨f, rfl⟩)) c' rfl
      rw [List.filter_cons_of_pos (by simp [Read.isTimeout]), hrest]
      cases hspec with
      | frame hdecode hsame =>
        rw [hsame, decodeAll_of_ok hdecode]
        rfl
      | failed hdecode hend => exact absurd hend.symm (FrameError.end_ne_frame _ f)
    · next r c' htimeout hframe hread =>
      rw [hread] at hspec
      cases hspec with
      | timeout => exact (htimeout rfl).elim
      | frame => exact (hframe _ rfl).elim
      | failed hdecode hend =>
        rw [decodeAll_of_error hdecode, List.filter_cons_of_pos, List.filter_nil, hend]
        · rfl
        · cases r with
          | timeout => exact (htimeout rfl).elim
          | frame f => rfl
          | eof => rfl
          | tooLarge n => rfl

end

/-! ### The codec -/

section

variable {μ ε : Type} (encodedLen : μ → Nat) (bytes : μ → Bytes) (parse : Bytes → Except ε μ)

inductive CodecError (ε : Type)
  | framing (e : FrameError)
  | decode (e : ε)

/-- `codec::encode`, which asks a message for its length before it writes it. -/
def codecEncode (m : μ) : Except FrameError Bytes :=
  if encodedLen m ≥ 2 ^ 32 then .error (.frameTooLarge (2 ^ 32 - 1))
  else if encodedLen m > maxFrameLen then .error (.frameTooLarge (encodedLen m))
  else .ok (be32 (encodedLen m) ++ bytes m)

def codecDecode (buf : Bytes) : Except (CodecError ε) (μ × Nat) :=
  match decodeFrame buf with
  | .error e => .error (.framing e)
  | .ok (payload, consumed) =>
    match parse payload with
    | .error e => .error (.decode e)
    | .ok m => .ok (m, consumed)

theorem codecEncode_eq {m : μ} (hlen : encodedLen m = (bytes m).length) :
    codecEncode encodedLen bytes m = encodeFrame (bytes m) := by
  unfold codecEncode encodeFrame
  rw [hlen]

/-- A message is decoded from its frame, whatever follows. -/
theorem codecDecode_codecEncode {m : μ} (hlen : encodedLen m = (bytes m).length)
    (hparse : parse (bytes m) = .ok m) {frame : Bytes}
    (h : codecEncode encodedLen bytes m = .ok frame) (rest : Bytes) :
    codecDecode parse (frame ++ rest) = .ok (m, frame.length) := by
  rw [codecEncode_eq encodedLen bytes hlen] at h
  unfold codecDecode
  rw [decodeFrame_encodeFrame h]
  simp only [hparse]

end

/-! ### All readers -/

section

variable {φ : Type} (decode : Bytes → φ)

/-- Every reader gives the reads of `r` on a stream, whatever its chunks and timeouts are. -/
structure AllRead (w : Wire UInt8) (r : List Bytes × Bytes × FrameError) : Prop where
  decodeFrame : decodeArrivals [] w = r.1
  rust : readFrames decode w = readsOf decode r
  python : (Conn.readFrames decode ⟨[], w⟩).filter (fun r => !r.isTimeout) = readsOf decode r

theorem allRead (w : Wire UInt8) : AllRead decode w (decodeAll w.content) where
  decodeFrame := decodeArrivals_eq (by rw [decodeAll_nil]) w
  rust := readFrames_eq decode w
  python := Conn.readFrames_eq decode ⟨[], w⟩

/-- Framing is a round trip under any chunking: frames come back as their payloads, a part of a frame as
nothing, and a length above 16 MiB is refused on its four bytes. -/
theorem frames_round_trip :
    (∀ payload : Bytes, payload.length ≤ maxFrameLen → ∃ frame, encodeFrame payload = .ok frame) ∧
    (∀ payloads frames, List.Forall₂ (fun p f => encodeFrame p = .ok f) payloads frames →
      decodeAll frames.flatten = (payloads, [], .truncatedLengthPrefix) ∧
      ∀ w : Wire UInt8, w.content = frames.flatten →
        AllRead decode w (payloads, [], .truncatedLengthPrefix)) ∧
    (∀ payload frame part, encodeFrame payload = .ok frame → part <+: frame → part ≠ frame →
      ∃ e, decodeFrame part = .error e ∧ (e.end : Read φ) = .eof ∧
        ∀ w : Wire UInt8, w.content = part → AllRead decode w ([], part, e)) ∧
    (∀ n rest, maxFrameLen < n → n < 2 ^ 32 →
      decodeFrame (be32 n ++ rest) = .error (.frameTooLarge n) ∧
      (∀ w : Wire UInt8, w.content = be32 n ++ rest →
        AllRead decode w ([], be32 n ++ rest, .frameTooLarge n) ∧
        ∃ w', readFrame decode w = (.tooLarge n, w') ∧ w'.content = rest) ∧
      ∀ w, Conn.readFrame decode ⟨be32 n ++ rest, w⟩ = (.tooLarge n, ⟨be32 n ++ rest, w⟩)) := by
  refine ⟨fun payload hle => ⟨_, encodeFrame_eq_ok.mpr ⟨hle, rfl⟩⟩, ?_, ?_, ?_⟩
  · intro payloads frames h
    have hall : decodeAll frames.flatten = (payloads, [], .truncatedLengthPrefix) := by
      have hframes := decodeAll_frames h []
      rwa [decodeAll_nil, List.append_nil, List.append_nil] at hframes
    refine ⟨hall, fun w hw => ?_⟩
    rw [← hall, ← hw]
    exact allRead decode w
  · intro payload frame part h hpart hne
    obtain ⟨e, hdecode, hend⟩ : ∃ e, decodeFrame part = .error e ∧ (e.end : Read φ) = .eof := by
      rcases decodeFrame_of_prefix h hpart hne with hdecode | ⟨need, got, hdecode⟩
      · exact ⟨_, hdecode, rfl⟩
      · exact ⟨_, hdecode, rfl⟩
    refine ⟨e, hdecode, hend, fun w hw => ?_⟩
    rw [← decodeAll_of_error hdecode, ← hw]
    exact allRead decode w
  · intro n rest hlarge hn
    have hdecode : decodeFrame (be32 n ++ rest) = .error (.frameTooLarge n) := by
      rw [decodeFrame_be32 hn, if_pos hlarge]
    refine ⟨hdecode, fun w hw => ⟨?_, ?_⟩, fun w => ?_⟩
    · rw [← decodeAll_of_error hdecode, ← hw]
      exact allRead decode w
    · have hspec := readFrame_spec decode w
      rw [hw, hdecode] at hspec
      obtain ⟨w', hread, hcontent⟩ := hspec
      exact ⟨w', hread, by rw [hcontent, List.drop_left' (length_be32 n)]⟩
    · unfold Conn.readFrame
      rw [Conn.fill_of_le (by rw [List.length_append, length_be32]; omega)]
      simp only
      rw [List.take_left' (length_be32 n), fromBe_be32 hn, if_pos hlarge]

/-- Two frames in three chunks, with a timeout inside a length and one inside a payload. -/
theorem frames_round_trip_torn :
    AllRead id [.chunk 0 [0], .quiet, .chunk 0 [2, 7], .quiet, .chunk 8 [0, 0, 0, 0]]
      ([[7, 8], []], [], .truncatedLengthPrefix) :=
  ((frames_round_trip id).2.1 [[7, 8], []] [[0, 0, 0, 2, 7, 8], [0, 0, 0, 0]]
    (.cons rfl (.cons rfl .nil))).2 _ rfl

end

end RithmicNt.Gateway.FrameReaders
