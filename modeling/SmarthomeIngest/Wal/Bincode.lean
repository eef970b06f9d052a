import SmarthomeIngest.Wal.Codec

/-!
# The fixed-width bincode format

`bincode::serialize` and `bincode::deserialize` at the type `WalEvent`: lengths as `u64`, integers
little-endian and of fixed width, bytes behind the value ignored. The log assumes no more of the
library than `Bincode.RoundTrips`; this instance has it.
-/

namespace SmarthomeIngest

namespace Bincode

open Bytes

/-- A string, its length in front. -/
def putString (s : String) : Bytes := Bytes.ofNatLe 8 (utf8 s).length ++ utf8 s

def getString (b : Bytes) : Except String (String × Bytes) :=
  let len := Bytes.toNatLe (b.take 8)
  let rest := b.drop 8
  if b.length < 8 ∨ rest.length < len then .error "io error: unexpected end of file"
  else
    match ofUtf8 (rest.take len) with
    | none   => .error "invalid u8 while decoding a string"
    | some s => .ok (s, rest.drop len)

def putInt64 (n : Int64) : Bytes := Bytes.ofNatLe 8 n.toUInt64.toNat

def getInt64 (b : Bytes) : Except String (Int64 × Bytes) :=
  if b.length < 8 then .error "io error: unexpected end of file"
  else .ok ((UInt64.ofNat (Bytes.toNatLe (b.take 8))).toInt64, b.drop 8)

/-- The format. The length of a string in memory is a `u64`, so the first branch is never taken. -/
def fixint : Bincode where
  serialize e :=
    if 2 ^ 64 ≤ (utf8 e.topic).length ∨ 2 ^ 64 ≤ (utf8 e.payload).length then
      .error "the size limit has been reached"
    else .ok (putString e.topic ++ putInt64 e.tsMs ++ putString e.payload)
  deserialize b := do
    let (topic, b) ← getString b
    let (tsMs, b) ← getInt64 b
    let (payload, _) ← getString b
    return ⟨topic, tsMs, payload⟩

/-! ### Round trip -/

lemma getString_putString {s : String} (h : (utf8 s).length < 2 ^ 64) (b : Bytes) :
    getString (putString s ++ b) = .ok (s, b) := by
  have hlen : (utf8 s).length < 256 ^ 8 := h.trans_eq (by norm_num)
  have hcut : (Bytes.ofNatLe 8 (utf8 s).length ++ (utf8 s ++ b)).take 8 =
      Bytes.ofNatLe 8 (utf8 s).length := List.take_left' (Bytes.length_ofNatLe 8 _)
  have hrest : (Bytes.ofNatLe 8 (utf8 s).length ++ (utf8 s ++ b)).drop 8 = utf8 s ++ b :=
    List.drop_left' (Bytes.length_ofNatLe 8 _)
  simp only [getString, putString, List.append_assoc, hcut, hrest, Bytes.toNatLe_ofNatLe hlen]
  rw [if_neg (by simp)]
  simp [ofUtf8_utf8]

lemma getInt64_putInt64 (n : Int64) (b : Bytes) : getInt64 (putInt64 n ++ b) = .ok (n, b) := by
  have hlt : n.toUInt64.toNat < 256 ^ 8 := n.toUInt64.toNat_lt.trans_eq (by norm_num)
  have hcut : (putInt64 n ++ b).take 8 = putInt64 n := List.take_left' (Bytes.length_ofNatLe 8 _)
  have hrest : (putInt64 n ++ b).drop 8 = b := List.drop_left' (Bytes.length_ofNatLe 8 _)
  rw [getInt64, if_neg (by simp [putInt64]), hcut, hrest, putInt64, Bytes.toNatLe_ofNatLe hlt]
  simp

theorem fixint_roundTrips : fixint.RoundTrips := by
  intro e b h
  simp only [fixint] at h
  split_ifs at h with hlong
  cases h
  rw [not_or, not_le, not_le] at hlong
  simp only [fixint, List.append_assoc, getString_putString hlong.1, getInt64_putInt64, bind,
    Except.bind, pure, Except.pure]
  have hpayload := getString_putString hlong.2 []
  rw [List.append_nil] at hpayload
  rw [hpayload]

end Bincode

end SmarthomeIngest
