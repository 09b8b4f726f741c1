import WebhookBroker.Data.Cursor

/-!
# Base 64

`base64.StdEncoding.EncodeToString`, which writes the text of a cursor and the hash of the seed
data, and that `decodeString` reads back what it wrote. So no two byte strings have one text.
-/

namespace WebhookBroker

open List

/-- The character of a number below 64 in the standard alphabet. -/
def base64Digit (n : Nat) : Char :=
  "ABCDEFGHIJKLMNOPQRSTUVWXYZabcdefghijklmnopqrstuvwxyz0123456789+/".toList.getD n 'A'

def quantumDigits (bits : Nat) : List Char :=
  [bits / 262144, bits / 4096 % 64, bits / 64 % 64, bits % 64].map base64Digit

/-- `base64.StdEncoding.EncodeToString`: three bytes at a time, with padding at the end. -/
def encodeBase64 : List UInt8 → List Char
  | [] => []
  | [a] => (quantumDigits (a.toNat * 65536)).take 2 ++ ['=', '=']
  | [a, b] => (quantumDigits (a.toNat * 65536 + b.toNat * 256)).take 3 ++ ['=']
  | a :: b :: c :: rest =>
    quantumDigits (a.toNat * 65536 + b.toNat * 256 + c.toNat) ++ encodeBase64 rest

def byteChar (b : UInt8) : Char := Char.ofNat b.toNat

theorem base64Value_base64Digit : ∀ n < 64, base64Value (base64Digit n) = some n := by
  decide +kernel

theorem base64Digit_ne : ∀ n < 64,
    base64Digit n ≠ '=' ∧ base64Digit n ≠ '\n' ∧ base64Digit n ≠ '\r' := by
  decide +kernel

section
variable {bits : Nat}

theorem decodeQuanta_quantumDigits (h : bits < 16777216) (rest : List Char) :
    decodeQuanta (quantumDigits bits ++ rest) =
      (decodeQuanta rest).map (quantumBytes 3 bits ++ ·) := by
  have h0 : bits / 262144 < 64 := by omega
  have h1 : bits / 4096 % 64 < 64 := by omega
  have h2 : bits / 64 % 64 < 64 := by omega
  have h3 : bits % 64 < 64 := by omega
  have hbits : quantum (bits / 262144) (bits / 4096 % 64) (bits / 64 % 64) (bits % 64) = bits := by
    unfold quantum
    omega
  simp only [quantumDigits, map_cons, map_nil, cons_append, nil_append]
  rw [decodeQuanta]
  · simp only [base64Value_base64Digit _ h0, base64Value_base64Digit _ h1,
      base64Value_base64Digit _ h2, base64Value_base64Digit _ h3, Option.bind_eq_bind,
      Option.bind_some, hbits]
    cases decodeQuanta rest <;> rfl
  · intro heq
    exact absurd heq (base64Digit_ne _ h2).1
  · intro heq
    exact absurd heq (base64Digit_ne _ h3).1

end

theorem quantumBytes_eq {a b c : Nat} (hb : b < 256) (hc : c < 256) (n : Nat) :
    quantumBytes n (a * 65536 + b * 256 + c) = ([a, b, c].map Char.ofNat).take n := by
  have h0 : (a * 65536 + b * 256 + c) / 65536 = a := by omega
  have h1 : (a * 65536 + b * 256 + c) / 256 % 256 = b := by omega
  have h2 : (a * 65536 + b * 256 + c) % 256 = c := by omega
  rw [quantumBytes, h0, h1, h2]

theorem decodeQuanta_encodeBase64 (src : List UInt8) :
    decodeQuanta (encodeBase64 src) = some (src.map byteChar) := by
  fun_induction encodeBase64 src with
  | case1 => rfl
  | case2 a =>
    have ha : a.toNat < 256 := a.toNat_lt
    have hbits : quantum (a.toNat * 65536 / 262144) (a.toNat * 65536 / 4096 % 64) 0 0 =
        a.toNat * 65536 + 0 * 256 + 0 := by
      unfold quantum
      omega
    simp only [quantumDigits, map_cons, map_nil, take_succ_cons, take_zero,
      cons_append, nil_append]
    rw [decodeQuanta, base64Value_base64Digit _ (by omega), base64Value_base64Digit _ (by omega)]
    simp only [Option.bind_eq_bind, Option.bind_some, hbits,
      quantumBytes_eq (show 0 < 256 by omega) (show 0 < 256 by omega)]
    rfl
  | case3 a b =>
    have ha : a.toNat < 256 := a.toNat_lt
    have hb : b.toNat < 256 := b.toNat_lt
    have hbits : quantum ((a.toNat * 65536 + b.toNat * 256) / 262144)
        ((a.toNat * 65536 + b.toNat * 256) / 4096 % 64)
        ((a.toNat * 65536 + b.toNat * 256) / 64 % 64) 0 = a.toNat * 65536 + b.toNat * 256 + 0 := by
      unfold quantum
      omega
    simp only [quantumDigits, map_cons, map_nil, take_succ_cons, take_zero,
      cons_append, nil_append]
    rw [decodeQuanta, base64Value_base64Digit _ (by omega), base64Value_base64Digit _ (by omega),
      base64Value_base64Digit _ (by omega)]
    · simp only [Option.bind_eq_bind, Option.bind_some, hbits,
        quantumBytes_eq hb (show 0 < 256 by omega)]
      rfl
    · intro heq
      exact absurd heq (base64Digit_ne _ (by omega)).1
  | case4 a b c rest ih =>
    have ha : a.toNat < 256 := a.toNat_lt
    have hb : b.toNat < 256 := b.toNat_lt
    have hc : c.toNat < 256 := c.toNat_lt
    rw [decodeQuanta_quantumDigits (by omega), ih, quantumBytes_eq hb hc]
    rfl

/-- The encoded text has no line end, which the decoder would skip. -/
theorem mem_encodeBase64 {ch : Char} (src : List UInt8) (h : ch ∈ encodeBase64 src) :
    ch ≠ '\n' ∧ ch ≠ '\r' := by
  have hdigits : ∀ {bits : Nat}, bits < 16777216 →
      ∀ c ∈ quantumDigits bits, c ≠ '\n' ∧ c ≠ '\r' := by
    intro bits hbits c hc
    obtain ⟨n, hn, rfl⟩ := mem_map.1 hc
    have hlt : n < 64 := by
      simp only [mem_cons, not_mem_nil, or_false] at hn
      omega
    exact (base64Digit_ne n hlt).2
  have hpad : ('=' : Char) ≠ '\n' ∧ ('=' : Char) ≠ '\r' := by decide
  fun_induction encodeBase64 src with
  | case1 => cases h
  | case2 a =>
    have ha : a.toNat < 256 := a.toNat_lt
    rcases mem_append.1 h with h | h
    · exact hdigits (by omega) _ (mem_of_mem_take h)
    · simp only [mem_cons, not_mem_nil, or_false, or_self] at h
      exact h ▸ hpad
  | case3 a b =>
    have ha : a.toNat < 256 := a.toNat_lt
    have hb : b.toNat < 256 := b.toNat_lt
    rcases mem_append.1 h with h | h
    · exact hdigits (by omega) _ (mem_of_mem_take h)
    · exact mem_singleton.1 h ▸ hpad
  | case4 a b c rest ih =>
    have ha : a.toNat < 256 := a.toNat_lt
    have hb : b.toNat < 256 := b.toNat_lt
    have hc : c.toNat < 256 := c.toNat_lt
    rcases mem_append.1 h with h | h
    · exact hdigits (by omega) _ h
    · exact ih h

theorem decodeString_encodeBase64 (src : List UInt8) :
    decodeString (encodeBase64 src) = some (src.map byteChar) := by
  have hfilter :
      (encodeBase64 src).filter (fun c => c != '\n' && c != '\r') = encodeBase64 src := by
    rw [filter_eq_self]
    intro c hc
    simpa using mem_encodeBase64 src hc
  rw [decodeString, hfilter, decodeQuanta_encodeBase64]

theorem toNat_ofNat_byte : ∀ n < 256, (Char.ofNat n).toNat = n := by
  decide +kernel

theorem byteChar_injective : Function.Injective byteChar := by
  intro a b h
  have hnat := congrArg Char.toNat h
  rw [byteChar, byteChar, toNat_ofNat_byte _ a.toNat_lt, toNat_ofNat_byte _ b.toNat_lt] at hnat
  exact UInt8.toNat_inj.1 hnat

theorem encodeBase64_injective : Function.Injective encodeBase64 := by
  intro a b h
  have hdecode := decodeString_encodeBase64 a
  rw [h, decodeString_encodeBase64 b] at hdecode
  exact (map_injective_iff.2 byteChar_injective (Option.some.inj hdecode)).symm

end WebhookBroker
