import Mathlib.Data.List.Forall2
import Mathlib.Data.List.Induction
import Mathlib.Data.List.Nodup
import TopologyAudit.Entries

/-!
# Laws of ordered maps

`distinct` keeps exactly the members of a list and each once, in the order of their first
occurrences; `ofList` changes nothing about pairs whose keys are distinct already. Both are
folds, so each law is first stated for the fold from any accumulator.
-/

namespace TopologyAudit.Entries

variable {κ ν : Type} [BEq κ] [LawfulBEq κ]

private theorem any_eq_iff_mem {seen : List κ} {key : κ} :
    seen.any (· == key) = true ↔ key ∈ seen := by
  rw [List.any_eq_true]
  constructor
  · intro hr
    obtain ⟨k, hk, he⟩ := hr
    rw [← eq_of_beq he]
    exact hk
  · intro hk
    exact ⟨key, hk, beq_self_eq_true key⟩

private theorem mem_distinct_fold {key : κ} :
    ∀ (keys seen : List κ),
      key ∈ keys.foldl (fun seen k => if seen.any (· == k) then seen else seen ++ [k]) seen ↔
        key ∈ seen ∨ key ∈ keys := by
  intro keys
  induction keys with
  | nil => intro seen; simp
  | cons k keys ih =>
    intro seen
    rw [List.foldl_cons, ih]
    by_cases hk : k ∈ seen
    -- what was seen is dropped, so it has to be among the seen keys already
    · rw [if_pos (any_eq_iff_mem.mpr hk), List.mem_cons]
      constructor
      · intro hr
        rcases hr with h | h
        · exact Or.inl h
        · exact Or.inr (Or.inr h)
      · intro hr
        rcases hr with h | rfl | h
        · exact Or.inl h
        · exact Or.inl hk
        · exact Or.inr h
    · rw [if_neg (fun h => hk (any_eq_iff_mem.mp h)), List.mem_append, List.mem_singleton,
        List.mem_cons, or_assoc]

/-- Nothing is lost and nothing comes in. -/
theorem mem_distinct {keys : List κ} {key : κ} : key ∈ distinct keys ↔ key ∈ keys := by
  rw [distinct, mem_distinct_fold]
  simp

private theorem nodup_distinct_fold :
    ∀ (keys seen : List κ), seen.Nodup →
      (keys.foldl (fun seen k => if seen.any (· == k) then seen else seen ++ [k]) seen).Nodup := by
  intro keys
  induction keys with
  | nil => intro seen hs; exact hs
  | cons k keys ih =>
    intro seen hs
    rw [List.foldl_cons]
    apply ih
    by_cases hk : k ∈ seen
    · rw [if_pos (any_eq_iff_mem.mpr hk)]
      exact hs
    · rw [if_neg (fun h => hk (any_eq_iff_mem.mp h))]
      -- a key goes to the end only if it was not seen
      refine List.nodup_append.mpr ⟨hs, List.nodup_singleton k, ?_⟩
      intro a ha b hb he
      rw [List.mem_singleton] at hb
      exact hk (hb ▸ he ▸ ha)

private theorem distinct_fold_eq :
    ∀ (keys seen : List κ),
      keys.foldl (fun seen k => if seen.any (· == k) then seen else seen ++ [k]) seen =
        seen ++ (keys.filter fun k => !seen.contains k).eraseDups := by
  intro keys
  induction keys with
  | nil => intro seen; exact (List.append_nil seen).symm
  | cons k keys ih =>
    intro seen
    rw [List.foldl_cons, ih]
    by_cases hk : k ∈ seen
    · rw [if_pos (any_eq_iff_mem.mpr hk), List.filter_cons_of_neg (by simp [hk])]
    -- a new key goes to the end, and the later ones are looked at without it
    · have hfilter : (keys.filter fun b => !(seen ++ [k]).contains b) =
          keys.filter fun b => !b == k && !seen.contains b := by
        refine List.filter_congr fun b _ => ?_
        by_cases hb : b = k <;> simp [hb]
      rw [if_neg (fun h => hk (any_eq_iff_mem.mp h)), List.filter_cons_of_pos (by simp [hk]),
        List.eraseDups_cons, List.filter_filter, List.append_assoc, List.singleton_append, hfilter]

/-- The members are kept where they first occur. -/
theorem distinct_eq_eraseDups (keys : List κ) : distinct keys = keys.eraseDups := by
  rw [distinct, distinct_fold_eq, List.nil_append]
  congr 1
  exact List.filter_eq_self.mpr fun _ _ => rfl

/-- Each member stands once. -/
theorem nodup_distinct (keys : List κ) : (distinct keys).Nodup :=
  nodup_distinct_fold keys [] List.nodup_nil

/-- Members stand in the order of their first occurrences. -/
theorem pairwise_idxOf_eraseDups (keys : List κ) :
    keys.eraseDups.Pairwise fun a b => keys.idxOf a < keys.idxOf b := by
  induction keys using List.reverseRecOn with
  | nil => exact .nil
  | append_singleton keys k ih =>
    -- what stands among the earlier keys is found there
    have hleft : keys.eraseDups.Pairwise fun a b =>
        (keys ++ [k]).idxOf a < (keys ++ [k]).idxOf b := by
      refine ih.imp_of_mem fun ha hb hlt => ?_
      rwa [List.idxOf_append_of_mem (List.mem_eraseDups.mp ha),
        List.idxOf_append_of_mem (List.mem_eraseDups.mp hb)]
    rw [List.eraseDups_append]
    by_cases hk : k ∈ keys
    · have hnone : [k].removeAll keys = [] := by simp [List.removeAll, hk]
      rwa [hnone, List.eraseDups_nil, List.append_nil]
    · have hone : [k].removeAll keys = [k] := by simp [List.removeAll, hk]
      rw [hone, List.pairwise_append]
      refine ⟨hleft, List.pairwise_singleton _ _, ?_⟩
      intro a ha b hb
      have ha : a ∈ keys := List.mem_eraseDups.mp ha
      obtain rfl : b = k := by simpa using hb
      rw [List.idxOf_append_of_mem ha, List.idxOf_append_of_notMem hk, List.idxOf_cons_self]
      exact List.idxOf_lt_length_of_mem ha

private theorem mem_put {entries : List (κ × ν)} {key : κ} {value : ν} {e : κ × ν}
    (h : e ∈ put entries key value) : e ∈ entries ∨ e = (key, value) := by
  unfold put at h
  split at h
  next =>
    obtain ⟨e', he', heq⟩ := List.mem_map.mp h
    split at heq
    -- the entry of the key has its new value
    next hkey => exact Or.inr (by rw [← heq, eq_of_beq hkey])
    next => exact Or.inl (heq ▸ he')
  next => exact (List.mem_append.mp h).imp_right List.mem_singleton.mp

/-- The entries of a map are among the pairs that were put. -/
theorem mem_of_mem_ofList {pairs : List (κ × ν)} {e : κ × ν} (h : e ∈ ofList pairs) :
    e ∈ pairs := by
  have hfold : ∀ (pairs entries : List (κ × ν)),
      e ∈ pairs.foldl (fun entries pair => put entries pair.1 pair.2) entries →
        e ∈ entries ∨ e ∈ pairs := by
    intro pairs
    induction pairs with
    | nil => exact fun _ => Or.inl
    | cons pair pairs ih =>
      intro entries h
      rcases ih _ h with h | h
      · rcases mem_put h with h | rfl
        · exact Or.inl h
        · exact Or.inr (List.mem_cons_self ..)
      · exact Or.inr (List.mem_cons_of_mem _ h)
  exact (hfold pairs [] h).resolve_left List.not_mem_nil

/-- A key that is not present goes to the end. -/
theorem put_of_notMem {entries : List (κ × ν)} {key : κ} (value : ν)
    (h : key ∉ entries.map (·.1)) : put entries key value = entries ++ [(key, value)] := by
  rw [put, if_neg]
  intro hany
  obtain ⟨e, he, hkey⟩ := List.any_eq_true.mp hany
  exact h (List.mem_map.mpr ⟨e, he, eq_of_beq hkey⟩)

private theorem ofList_fold_of_nodup :
    ∀ (pairs entries : List (κ × ν)), ((entries ++ pairs).map (·.1)).Nodup →
      pairs.foldl (fun entries pair => put entries pair.1 pair.2) entries = entries ++ pairs := by
  intro pairs
  induction pairs with
  | nil => intro entries _; simp
  | cons pair pairs ih =>
    intro entries hn
    -- keys are distinct, so the next one is none of those already put
    have hnew : pair.1 ∉ entries.map (·.1) := by
      rw [List.map_append, List.map_cons, List.nodup_append] at hn
      intro hmem
      exact hn.2.2 _ hmem _ (List.mem_cons_self ..) rfl
    rw [List.foldl_cons, put_of_notMem _ hnew, ih, List.append_assoc, List.singleton_append]
    rw [List.append_assoc, List.singleton_append]
    exact hn

/-- Pairs with distinct keys are an ordered map as they stand. -/
theorem ofList_of_nodup {pairs : List (κ × ν)} (h : (pairs.map (·.1)).Nodup) :
    ofList pairs = pairs :=
  ofList_fold_of_nodup pairs [] h

section

variable {μ : Type}

omit [LawfulBEq κ] in
/-- Which entry is put where does not depend on the values. -/
theorem put_map (f : ν → μ) (entries : List (κ × ν)) (key : κ) (value : ν) :
    put (entries.map fun e => (e.1, f e.2)) key (f value) =
      (put entries key value).map fun e => (e.1, f e.2) := by
  have hany : (entries.map fun e => (e.1, f e.2)).any (·.1 == key) =
      entries.any (·.1 == key) := by
    rw [List.any_map]
    rfl
  rw [put, put, hany]
  by_cases h : entries.any (·.1 == key) = true
  · rw [if_pos h, if_pos h, List.map_map, List.map_map]
    refine List.map_congr_left fun e _ => ?_
    by_cases he : (e.1 == key) = true
    · simp [he]
    · simp [he]
  · rw [if_neg h, if_neg h, List.map_append]
    rfl

omit [LawfulBEq κ] in
/-- The values of an ordered map may be changed before or after it is put together. -/
theorem ofList_map (f : ν → μ) (pairs : List (κ × ν)) :
    ofList (pairs.map fun e => (e.1, f e.2)) = (ofList pairs).map fun e => (e.1, f e.2) := by
  have hfold : ∀ (pairs entries : List (κ × ν)),
      (pairs.map fun e => (e.1, f e.2)).foldl (fun entries pair => put entries pair.1 pair.2)
          (entries.map fun e => (e.1, f e.2)) =
        (pairs.foldl (fun entries pair => put entries pair.1 pair.2) entries).map
          fun e => (e.1, f e.2) := by
    intro pairs
    induction pairs with
    | nil => exact fun _ => rfl
    | cons pair pairs ih =>
      intro entries
      rw [List.map_cons, List.foldl_cons, List.foldl_cons, put_map, ih]
  exact hfold pairs []

end

omit [BEq κ] [LawfulBEq κ] in
/-- Entries that stand for the members of a list one by one are their keys and values. -/
theorem forall₂_entry_iff {α : Type} {key : α → κ} {R : α → ν → Prop} {l : List α}
    {entries : List (κ × ν)} :
    List.Forall₂ (fun a e => e.1 = key a ∧ R a e.2) l entries ↔
      ∃ values, entries = (l.map key).zip values ∧ List.Forall₂ R l values := by
  constructor
  · intro h
    induction h with
    | nil => exact ⟨[], rfl, .nil⟩
    | @cons a e l entries hfirst _ ih =>
      obtain ⟨values, rfl, hvalues⟩ := ih
      exact ⟨e.2 :: values, by rw [List.map_cons, List.zip_cons_cons, ← hfirst.1],
        .cons hfirst.2 hvalues⟩
  · rintro ⟨values, rfl, h⟩
    induction h with
    | nil => exact .nil
    | cons hfirst _ ih => exact .cons ⟨rfl, hfirst⟩ ih

end TopologyAudit.Entries
