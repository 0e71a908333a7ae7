import TopologyAudit.Proofs.Text.Basic
import TopologyAudit.Text.Utf8

/-!
# UTF-8 is read back

The first byte of a code point tells its length. What it says of the second byte keeps out
long forms and, from a strict reader, surrogates; these are bounds on the number that the
first two bytes make. A strict reader gives every text without surrogates back
(`decode_encode`), and one that lets surrogates in gives every text back.

What is written is laid down by the numbers of the bytes, for every code point (`IsForm`). A text
has one spelling and no other (`spells_iff`), so that writing one never fails.
-/

namespace TopologyAudit.Utf8

variable {surrogates : Bool} {low high : UInt8} {n m k x bits good : Nat} {rest : List UInt8}

theorem toNat_ofNat (h : n < 256) : (UInt8.ofNat n).toNat = n := UInt8.toNat_ofNat_of_lt' h

theorem ofNat_lt_iff {b : UInt8} (h : n < 256) : UInt8.ofNat n < b ↔ n < b.toNat := by
  rw [UInt8.lt_iff_toNat_lt, toNat_ofNat h]

theorem ofNat_eq_iff {b : UInt8} (h : n < 256) : UInt8.ofNat n = b ↔ n = b.toNat := by
  rw [← UInt8.toNat_inj, toNat_ofNat h]

/-! ## First bytes -/

/-- What a first byte announces, by its number. -/
theorem lead?_ofNat (h : n < 256) :
    lead? surrogates (UInt8.ofNat n) =
      if n < 0x80 then some ⟨0, 0x80, 0xBF, n⟩
      else if n < 0xC2 then none
      else if n < 0xE0 then some ⟨1, 0x80, 0xBF, n - 0xC0⟩
      else if n = 0xE0 then some ⟨2, 0xA0, 0xBF, 0⟩
      else if n = 0xED then some ⟨2, 0x80, if surrogates then 0xBF else 0x9F, 0xD⟩
      else if n < 0xF0 then some ⟨2, 0x80, 0xBF, n - 0xE0⟩
      else if n = 0xF0 then some ⟨3, 0x90, 0xBF, 0⟩
      else if n < 0xF4 then some ⟨3, 0x80, 0xBF, n - 0xF0⟩
      else if n = 0xF4 then some ⟨3, 0x80, 0x8F, 4⟩
      else none := by
  simp only [lead?, ofNat_lt_iff h, ofNat_eq_iff h, toNat_ofNat h]
  rfl

theorem lead?_of_one (h : k < 0x80) :
    lead? surrogates (UInt8.ofNat k) = some ⟨0, 0x80, 0xBF, k⟩ := by
  rw [lead?_ofNat (by omega), if_pos h]

theorem lead?_of_two (hshort : 2 ≤ k) (hk : k < 0x20) :
    lead? surrogates (UInt8.ofNat (0xC0 + k)) = some ⟨1, 0x80, 0xBF, k⟩ := by
  rw [lead?_ofNat (by omega), if_neg (by omega), if_neg (by omega), if_pos (by omega),
    Nat.add_sub_cancel_left]

/-- That a second byte with some bits may follow a first byte that announces more bytes with
bits of its own. -/
structure Admits (surrogates : Bool) (first : UInt8) (following bits x : Nat) : Prop where
  lead : ∃ low high, lead? surrogates first = some ⟨following, low, high, bits⟩ ∧
    low.toNat ≤ 0x80 + x ∧ 0x80 + x ≤ high.toNat

/-- Of three bytes the first two make a number that is beyond the short forms, and no
surrogate's if these are kept out. -/
theorem admits_of_three (hk : k < 0x10) (hx : x < 0x40) (hshort : 0x20 ≤ k * 0x40 + x)
    (hstrict : surrogates = true ∨ k * 0x40 + x < 0x360 ∨ 0x380 ≤ k * 0x40 + x) :
    Admits surrogates (UInt8.ofNat (0xE0 + k)) 2 k x := by
  constructor
  rw [lead?_ofNat (by omega), if_neg (by omega), if_neg (by omega), if_neg (by omega)]
  by_cases hfirst : k = 0
  · subst hfirst
    refine ⟨0xA0, 0xBF, rfl, ?_, ?_⟩
    · show 0xA0 ≤ 0x80 + x
      omega
    · show 0x80 + x ≤ 0xBF
      omega
  rw [if_neg (by omega)]
  by_cases hsurrogate : k = 0xD
  · subst hsurrogate
    refine ⟨0x80, _, rfl, Nat.le_add_right _ _, ?_⟩
    cases surrogates with
    | true =>
      show 0x80 + x ≤ 0xBF
      omega
    | false =>
      show 0x80 + x ≤ 0x9F
      rcases hstrict with hstrict | hstrict
      · cases hstrict
      · omega
  rw [if_neg (by omega), if_pos (by omega), Nat.add_sub_cancel_left]
  refine ⟨0x80, 0xBF, rfl, Nat.le_add_right _ _, ?_⟩
  show 0x80 + x ≤ 0xBF
  omega

/-- Of four bytes the first two make a number that is beyond the short forms, and not past the
last code point. -/
theorem admits_of_four (hx : x < 0x40) (hshort : 0x10 ≤ k * 0x40 + x)
    (hlast : k * 0x40 + x < 0x110) :
    Admits surrogates (UInt8.ofNat (0xF0 + k)) 3 k x := by
  constructor
  rw [lead?_ofNat (by omega), if_neg (by omega), if_neg (by omega), if_neg (by omega),
    if_neg (by omega), if_neg (by omega), if_neg (by omega)]
  by_cases hfirst : k = 0
  · subst hfirst
    refine ⟨0x90, 0xBF, rfl, ?_, ?_⟩
    · show 0x90 ≤ 0x80 + x
      omega
    · show 0x80 + x ≤ 0xBF
      omega
  rw [if_neg (by omega)]
  by_cases hend : k = 4
  · subst hend
    refine ⟨0x80, 0x8F, rfl, Nat.le_add_right _ _, ?_⟩
    show 0x80 + x ≤ 0x8F
    omega
  rw [if_pos (by omega), Nat.add_sub_cancel_left]
  refine ⟨0x80, 0xBF, rfl, Nat.le_add_right _ _, ?_⟩
  show 0x80 + x ≤ 0xBF
  omega

/-! ## Further bytes -/

theorem continuation_of_admitted (hlow : low.toNat ≤ 0x80 + x) (hhigh : 0x80 + x ≤ high.toNat)
    (hx : x < 0x40) :
    continuation (n + 1) low high bits good (UInt8.ofNat (0x80 + x) :: rest) =
      continuation n 0x80 0xBF (bits * 64 + x) (good + 1) rest := by
  have hval : (UInt8.ofNat (0x80 + x)).toNat = 0x80 + x := toNat_ofNat (by omega)
  have hadmitted : low ≤ UInt8.ofNat (0x80 + x) ∧ UInt8.ofNat (0x80 + x) ≤ high := by
    rw [UInt8.le_iff_toNat_le, UInt8.le_iff_toNat_le, hval]
    exact ⟨hlow, hhigh⟩
  have hbits : (0x80 + x) % 64 = x := by omega
  rw [continuation, if_pos hadmitted, hval, hbits]

/-- Behind the second byte every continuation byte may stand. -/
theorem continuation_tail (hx : x < 0x40) :
    continuation (n + 1) 0x80 0xBF bits good (UInt8.ofNat (0x80 + x) :: rest) =
      continuation n 0x80 0xBF (bits * 64 + x) (good + 1) rest := by
  refine continuation_of_admitted (Nat.le_add_right _ _) ?_ hx
  show 0x80 + x ≤ 0xBF
  omega

/-! ## Code points -/

theorem decodeOne_of_lead {b : UInt8} {lead : Lead} {tail : List UInt8}
    (hlead : lead? surrogates b = some lead)
    (h : continuation lead.following lead.low lead.high lead.bits 1 tail = .ok (n, rest)) :
    decodeOne surrogates b tail = .ok (CodePoint.ofNat n, rest) := by
  rw [decodeOne, hlead]
  simp only [h]

theorem decodeOne_of_admits {b : UInt8} {tail : List UInt8}
    (hadmits : Admits surrogates b (m + 1) k x) (hx : x < 0x40)
    (h : continuation m 0x80 0xBF (k * 64 + x) 2 tail = .ok (n, rest)) :
    decodeOne surrogates b (UInt8.ofNat (0x80 + x) :: tail) = .ok (CodePoint.ofNat n, rest) := by
  obtain ⟨low, high, hlead, hlow, hhigh⟩ := hadmits.lead
  refine decodeOne_of_lead hlead ?_
  rw [continuation_of_admitted hlow hhigh hx]
  exact h

/-- The bytes of a code point are read as the code point, whatever follows; a strict reader
needs that it is no surrogate. -/
theorem decodeOne_encodeCodePoint (c : CodePoint)
    (hstrict : surrogates = true ∨ c.isSurrogate = false) (rest : List UInt8) :
    ∃ b tail, encodeCodePoint c = b :: tail ∧
      decodeOne surrogates b (tail ++ rest) = .ok (c, rest) := by
  have hrange : surrogates = true ∨ c.val < 0xD800 ∨ 0xE000 ≤ c.val := by
    refine hstrict.imp_right fun h => ?_
    rw [CodePoint.isSurrogate, CodePoint.within, Bool.and_eq_false_iff, decide_eq_false_iff_not,
      decide_eq_false_iff_not] at h
    omega
  have hlast := c.val_lt
  have htail : ∀ i, i % 64 < 0x40 := fun i => Nat.mod_lt i (by decide)
  unfold encodeCodePoint
  simp only [Nat.shiftRight_eq_div_pow, Nat.reducePow, Nat.div_one]
  -- by the number of bytes, each time the bits of the bytes make the number of the code point
  by_cases h1 : c.val < 0x80
  · rw [if_pos h1]
    refine ⟨_, _, rfl, ?_⟩
    rw [decodeOne_of_lead (lead?_of_one h1) rfl, CodePoint.ofNat_val, List.nil_append]
  by_cases h2 : c.val < 0x800
  · rw [if_neg h1, if_pos h2]
    have hval : c.val / 64 * 64 + c.val % 64 = c.val := by omega
    refine ⟨_, _, rfl, ?_⟩
    refine (decodeOne_of_lead (lead?_of_two (by omega) (by omega))
      (continuation_tail (htail _))).trans ?_
    rw [hval, CodePoint.ofNat_val]
    rfl
  by_cases h3 : c.val < 0x10000
  · rw [if_neg h1, if_neg h2, if_pos h3]
    have hval : (c.val / 4096 * 64 + c.val / 64 % 64) * 64 + c.val % 64 = c.val := by omega
    refine ⟨_, _, rfl, ?_⟩
    refine (decodeOne_of_admits (admits_of_three (by omega) (htail _) (by omega)
      (hrange.imp_right fun h => by omega)) (htail _) (continuation_tail (htail _))).trans ?_
    rw [hval, CodePoint.ofNat_val]
    rfl
  · rw [if_neg h1, if_neg h2, if_neg h3]
    have hval : ((c.val / 262144 * 64 + c.val / 4096 % 64) * 64 + c.val / 64 % 64) * 64
        + c.val % 64 = c.val := by omega
    refine ⟨_, _, rfl, ?_⟩
    refine (decodeOne_of_admits (admits_of_four (htail _) (by omega) (by omega)) (htail _)
      ((continuation_tail (htail _)).trans (continuation_tail (htail _)))).trans ?_
    rw [hval, CodePoint.ofNat_val]
    rfl

/-! ## Texts -/

theorem decodeFrom_encode {t : Text}
    (hstrict : surrogates = true ∨ ∀ c ∈ t, c.isSurrogate = false) :
    ∀ {fuel position : Nat} {acc : Text}, (encode t).length ≤ fuel →
      decodeFrom surrogates fuel position (encode t) acc = .ok (acc.reverse ++ t) := by
  induction t with
  | nil =>
    intro fuel position acc _
    rw [List.append_nil]
    unfold decodeFrom
    rfl
  | cons c t ih =>
    intro fuel position acc hfuel
    obtain ⟨b, tail, hbytes, hone⟩ := decodeOne_encodeCodePoint c
      (hstrict.imp_right fun h => h c (List.mem_cons_self ..)) (encode t)
    have hencode : encode (c :: t) = b :: (tail ++ encode t) := by
      rw [encode, List.flatMap_cons, hbytes]
      rfl
    rw [hencode, List.length_cons, List.length_append] at hfuel
    obtain ⟨fuel, rfl⟩ : ∃ f, fuel = f + 1 := ⟨fuel - 1, by omega⟩
    rw [hencode, decodeFrom, hone]
    simp only
    rw [ih (hstrict.imp_right fun h d hd => h d (List.mem_cons_of_mem _ hd)) (by omega),
      List.reverse_cons, List.append_assoc, List.singleton_append]

/-- **UTF-8 without surrogates.** A text without surrogates is read back from its bytes. -/
theorem decode_encode {t : Text} (h : ∀ c ∈ t, c.isSurrogate = false) :
    decode (encode t) = .ok t :=
  decodeFrom_encode (.inr h) (Nat.le_refl _)

/-- **UTF-8 with surrogates.** Every text is read back by a reader that lets surrogates in. -/
theorem decodeAll_encode (t : Text) : decodeAll (encode t) = .ok t :=
  decodeFrom_encode (.inl rfl) (Nat.le_refl _)

/-! ## Forms -/

/-- The UTF-8 form of a code point, as the numbers of its bytes. The first byte tells how many
more there are, and each of these has six bits of the number. A form is not longer than it has to
be, and any number has one, a surrogate's too. -/
inductive IsForm (c : CodePoint) : List Nat → Prop
  | one (hhigh : c.val < 0x80) : IsForm c [c.val]
  | two {k x : Nat} (hx : x < 0x40) (hval : k * 0x40 + x = c.val)
    (hlow : 0x80 ≤ c.val) (hhigh : c.val < 0x800) : IsForm c [0xC0 + k, 0x80 + x]
  | three {k x y : Nat} (hx : x < 0x40) (hy : y < 0x40) (hval : (k * 0x40 + x) * 0x40 + y = c.val)
    (hlow : 0x800 ≤ c.val) (hhigh : c.val < 0x10000) : IsForm c [0xE0 + k, 0x80 + x, 0x80 + y]
  | four {k x y z : Nat} (hx : x < 0x40) (hy : y < 0x40) (hz : z < 0x40)
    (hval : ((k * 0x40 + x) * 0x40 + y) * 0x40 + z = c.val) (hlow : 0x10000 ≤ c.val) :
    IsForm c [0xF0 + k, 0x80 + x, 0x80 + y, 0x80 + z]

/-- That bytes are the forms of the code points of a text, one behind the other. -/
inductive Spells : List UInt8 → Text → Prop
  | nil : Spells [] []
  | cons {c : CodePoint} {form bytes : List UInt8} {t : Text}
    (hform : IsForm c (form.map UInt8.toNat)) (h : Spells bytes t) :
    Spells (form ++ bytes) (c :: t)

/-- The bytes of a code point by their numbers, none of which is too great for a byte. -/
theorem map_toNat_encodeCodePoint (c : CodePoint) :
    (encodeCodePoint c).map UInt8.toNat =
      if c.val < 0x80 then [c.val]
      else if c.val < 0x800 then [0xC0 + c.val / 0x40, 0x80 + c.val % 0x40]
      else if c.val < 0x10000 then
        [0xE0 + c.val / 0x1000, 0x80 + c.val / 0x40 % 0x40, 0x80 + c.val % 0x40]
      else
        [0xF0 + c.val / 0x40000, 0x80 + c.val / 0x1000 % 0x40, 0x80 + c.val / 0x40 % 0x40,
          0x80 + c.val % 0x40] := by
  have hlast := c.val_lt
  have htail : ∀ n, (UInt8.ofNat (0x80 + n % 64)).toNat = 0x80 + n % 64 := fun n =>
    toNat_ofNat (by omega)
  unfold encodeCodePoint
  simp only [Nat.shiftRight_eq_div_pow, Nat.reducePow, Nat.div_one]
  split
  next => rw [List.map_singleton, toNat_ofNat (by omega)]
  next =>
    split
    next => rw [List.map_cons, List.map_singleton, toNat_ofNat (by omega), htail]
    next =>
      split
      next =>
        rw [List.map_cons, List.map_cons, List.map_singleton, toNat_ofNat (by omega), htail, htail]
      next =>
        rw [List.map_cons, List.map_cons, List.map_cons, List.map_singleton, toNat_ofNat (by omega),
          htail, htail, htail]

/-- Every code point has a form, and its bytes are the only one. -/
theorem isForm_iff {c : CodePoint} {form : List Nat} :
    IsForm c form ↔ form = (encodeCodePoint c).map UInt8.toNat := by
  rw [map_toNat_encodeCodePoint]
  constructor
  · -- the bits of the bytes are those of the number
    intro h
    cases h with
    | one hhigh => rw [if_pos hhigh]
    | @two k x hx hval hlow hhigh =>
      have hk : c.val / 0x40 = k := by omega
      have hx' : c.val % 0x40 = x := by omega
      rw [if_neg (by omega), if_pos hhigh, hk, hx']
    | @three k x y hx hy hval hlow hhigh =>
      have hk : c.val / 0x1000 = k := by omega
      have hx' : c.val / 0x40 % 0x40 = x := by omega
      have hy' : c.val % 0x40 = y := by omega
      rw [if_neg (by omega), if_neg (by omega), if_pos hhigh, hk, hx', hy']
    | @four k x y z hx hy hz hval hlow =>
      have hk : c.val / 0x40000 = k := by omega
      have hx' : c.val / 0x1000 % 0x40 = x := by omega
      have hy' : c.val / 0x40 % 0x40 = y := by omega
      have hz' : c.val % 0x40 = z := by omega
      rw [if_neg (by omega), if_neg (by omega), if_neg (by omega), hk, hx', hy', hz']
  · rintro rfl
    have hmod : ∀ n, n % 0x40 < 0x40 := fun n => Nat.mod_lt n (by decide)
    split
    next hone => exact .one hone
    next hone =>
      split
      next htwo => exact .two (hmod _) (by omega) (by omega) htwo
      next htwo =>
        split
        next hthree => exact .three (hmod _) (hmod _) (by omega) (by omega) hthree
        next hthree => exact .four (hmod _) (hmod _) (hmod _) (by omega) (by omega)

/-- **Every text has one spelling**, and it is encoded in this one. -/
theorem spells_iff {bytes : List UInt8} {t : Text} : Spells bytes t ↔ bytes = encode t := by
  constructor
  · intro h
    induction h with
    | nil => rfl
    | @cons c form bytes t hform _ ih =>
      have hinjective : Function.Injective (List.map UInt8.toNat) :=
        List.map_injective_iff.mpr fun _ _ => UInt8.toNat_inj.mp
      rw [encode, List.flatMap_cons, ← hinjective (isForm_iff.mp hform), ih]
      rfl
  · rintro rfl
    induction t with
    | nil => exact .nil
    | cons c t ih => exact .cons (isForm_iff.mpr rfl) ih

/-- Different texts have different bytes. -/
theorem encode_injective : Function.Injective encode := by
  intro t u h
  have hdecode := decodeAll_encode t
  rw [h, decodeAll_encode] at hdecode
  exact (Except.ok.inj hdecode).symm

end TopologyAudit.Utf8
