import TopologyAudit.Proofs.Record.RoundTrip
import TopologyAudit.Proofs.Result
import TopologyAudit.Proofs.Text.Numeral
import TopologyAudit.Proofs.Text.Utf8

/-!
# What a fingerprint sees

A fingerprint writes the first forty-eight bits of a digest in hexadecimal digits, all of them and
nothing else (`fingerprint_eq_hex`). The digest is taken of the bytes of a text, and these tell
each text from any other one. So texts that differ anywhere share a fingerprint only where two
different lists of bytes agree in the first bits of their digests (`fingerprint_sees_all`).
-/

namespace TopologyAudit

namespace Sha256

/-- The number that words write, the first of them the highest. -/
def number (words : List UInt32) : Nat := words.foldl (fun n w => n * 2 ^ 32 + w.toNat) 0

/-- The number that the first bits of the digest of a message write. -/
def firstBits (count : Nat) (message : List UInt8) : Nat :=
  number (digest message) / 2 ^ (256 - count)

/-- That two messages are different and the first bits of their digests are not. -/
def Collides (count : Nat) (m m' : List UInt8) : Prop :=
  m ≠ m' ∧ firstBits count m = firstBits count m'

theorem number_concat (words : List UInt32) (w : UInt32) :
    number (words ++ [w]) = number words * 2 ^ 32 + w.toNat := by
  rw [number, List.foldl_append]
  rfl

/-- Words make a number of eight digits for each. -/
theorem number_lt (words : List UInt32) : number words < 16 ^ (8 * words.length) := by
  induction words using List.reverseRecOn with
  | nil => decide
  | append_singleton words w ih =>
    have hw : w.toNat < 2 ^ 32 := w.toNat_lt
    rw [number_concat, List.length_append, List.length_singleton, Nat.mul_add, Nat.pow_add]
    omega

/-- The digits of words are those of their number. -/
theorem flatMap_hex (words : List UInt32) (hne : words ≠ []) :
    words.flatMap (fun w => Text.hex 8 w.toNat) = Text.hex (8 * words.length) (number words) := by
  induction words using List.reverseRecOn with
  | nil => exact absurd rfl hne
  | append_singleton words w ih =>
    have hw : w.toNat < 16 ^ 8 := w.toNat_lt
    rw [List.flatMap_append, List.flatMap_singleton, number_concat, List.length_append,
      List.length_singleton]
    by_cases hwords : words = []
    · subst hwords
      rw [List.flatMap_nil, List.nil_append, number, List.foldl_nil, Nat.zero_mul, Nat.zero_add]
      rfl
    · have hlength := List.length_pos_iff.mpr hwords
      rw [ih hwords, Nat.mul_add, Nat.mul_one]
      exact (Text.hex_append (by omega) (by decide) (number words) hw).symm

/-- The digest of a message has eight words. -/
theorem length_digest (message : List UInt8) : (digest message).length = 8 := rfl

theorem firstBits_lt (message : List UInt8) : firstBits 48 message < 16 ^ 12 := by
  have hlt := number_lt (digest message)
  rw [length_digest] at hlt
  exact Nat.div_lt_of_lt_mul (Nat.lt_of_lt_of_eq hlt (by decide))

end Sha256

open Sha256 (firstBits)

/-- **A fingerprint writes the first bits of the digest**, four with each of its twelve digits. -/
theorem fingerprint_eq_hex (t : Text) :
    fingerprint t = Text.hex 12 (firstBits 48 (Utf8.encode t)) := by
  have hlength := Sha256.length_digest (Utf8.encode t)
  have hfirst := Sha256.firstBits_lt (Utf8.encode t)
  rw [fingerprint, Sha256.flatMap_hex _ (List.ne_nil_of_length_eq_add_one hlength), hlength]
  rw [firstBits] at hfirst ⊢
  generalize Sha256.number (Sha256.digest (Utf8.encode t)) = n at hfirst ⊢
  -- the number is made of its first bits and of the bits behind them
  have hsplit : n / 16 ^ 52 * 16 ^ 52 + n % 16 ^ 52 = n := Nat.div_add_mod' n (16 ^ 52)
  have happend : Text.hex (12 + 52) (n / 16 ^ 52 * 16 ^ 52 + n % 16 ^ 52) =
      Text.hex 12 (n / 16 ^ 52) ++ Text.hex 52 (n % 16 ^ 52) :=
    Text.hex_append (by decide) (by decide) (n / 16 ^ 52) (Nat.mod_lt n (by decide))
  rw [hsplit] at happend
  show (Text.hex (12 + 52) n).take fingerprintLength = Text.hex 12 (n / 16 ^ 52)
  rw [happend]
  exact List.take_left' (Text.length_hex (by decide) hfirst)

/-- Fingerprints are as different as the first bits. -/
theorem fingerprint_eq_iff {t u : Text} :
    fingerprint t = fingerprint u ↔
      firstBits 48 (Utf8.encode t) = firstBits 48 (Utf8.encode u) := by
  rw [fingerprint_eq_hex, fingerprint_eq_hex]
  refine ⟨fun h => ?_, fun h => by rw [h]⟩
  have hvalue := congrArg (Integer.value 16) h
  rwa [Integer.value_hex (by decide) (Sha256.firstBits_lt _),
    Integer.value_hex (by decide) (Sha256.firstBits_lt _)] at hvalue

/-- **A fingerprint sees every code point.** A text has one spelling in bytes, and is read back
from it. Another text has another one, so that the two share their fingerprint only where the
first forty-eight bits of the digests of two different messages collide. And the fingerprint of a
text is the one that its topology carries. -/
theorem fingerprint_sees_all (t u : Text) :
    (∀ bytes, Utf8.Spells bytes t ↔ bytes = Utf8.encode t) ∧
      Utf8.decodeAll (Utf8.encode t) = .ok t ∧
      (t ≠ u → Utf8.encode t ≠ Utf8.encode u ∧
        (fingerprint t = fingerprint u ↔ Sha256.Collides 48 (Utf8.encode t) (Utf8.encode u))) ∧
      ∀ order format topology, Topology.parse order format t = .ok (.success topology) →
        topology.metadata.fingerprint = some (fingerprint t) := by
  refine ⟨fun bytes => Utf8.spells_iff, Utf8.decodeAll_encode t, ?_, ?_⟩
  · intro hne
    have hbytes : Utf8.encode t ≠ Utf8.encode u := fun h => hne (Utf8.encode_injective h)
    exact ⟨hbytes, fingerprint_eq_iff.trans (and_iff_right hbytes).symm⟩
  · intro order format topology h
    obtain ⟨f, -, -, hmetadata⟩ := Topology.exists_check_of_parse h
    rw [hmetadata]

/-- The two halves of a surrogate pair are another text than the code point of the pair. They
take three bytes each where the code point takes four, and have another fingerprint. The least of
all configs has its own fingerprint in its topology. -/
theorem fingerprint_sees_halves :
    let halves : Text := [.ofNat 0xD83D, .ofNat 0xDE00]
    let whole : Text := [.ofNat 0x1F600]
    Utf8.Spells [0xED, 0xA0, 0xBD, 0xED, 0xB8, 0x80] halves ∧
      Utf8.Spells [0xF0, 0x9F, 0x98, 0x80] whole ∧
      Utf8.decodeAll (Utf8.encode halves) = .ok halves ∧ halves ≠ whole ∧
      Utf8.encode halves ≠ Utf8.encode whole ∧
      ¬Sha256.Collides 48 (Utf8.encode halves) (Utf8.encode whole) ∧
      fingerprint halves = "ea645893a930" ∧
      ∃ topology, Topology.parse .asWritten (.text "yaml") "services: []" = .ok (.success topology) ∧
        topology.metadata.fingerprint = some (fingerprint "services: []") := by
  intro halves whole
  have hne : halves ≠ whole := by decide
  have hapart : fingerprint halves ≠ fingerprint whole := by decide +kernel
  obtain ⟨hspells, hdecode, hdifferent, -⟩ := fingerprint_sees_all halves whole
  obtain ⟨hbytes, hcollides⟩ := hdifferent hne
  obtain ⟨hwhole, -⟩ := fingerprint_sees_all whole halves
  obtain ⟨topology, htopology, -⟩ := Result.exists_of_passes (p := fun _ => true)
    (x := Topology.parse .asWritten (.text "yaml") "services: []") (by decide +kernel)
  obtain ⟨-, -, -, hconfig⟩ := fingerprint_sees_all "services: []" halves
  exact ⟨(hspells _).mpr (by decide), (hwhole _).mpr (by decide), hdecode, hne, hbytes,
    fun h => hapart (hcollides.mpr h), by decide +kernel, topology, htopology,
    hconfig _ _ topology htopology⟩

end TopologyAudit
