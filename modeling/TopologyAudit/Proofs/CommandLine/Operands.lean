import Mathlib.Data.List.Basic
import TopologyAudit.CommandLine.Command
import TopologyAudit.Proofs.Outcome

/-!
# Files come from the arguments

The files of a command are arguments of the program, word for word: no argument is cut or put
together on its way. All that a grammar does with the arguments is to mark them and to take some
of them for operands, and what it has taken is among them at each step (`Taken.IsFrom`).
-/

namespace TopologyAudit.CommandLine

variable {g : Grammar} {names : List Text} {marked rest : List (Text × Role)} {s s' : Taken}

/-- That the operands taken so far are among some texts. -/
def Taken.IsFrom (names : List Text) (s : Taken) : Prop := ∀ t, some t ∈ s.operands → t ∈ names

/-- That marked arguments are among some texts. -/
def AreFrom (names : List Text) (marked : List (Text × Role)) : Prop := ∀ a ∈ marked, a.1 ∈ names

theorem AreFrom.mono (h : AreFrom names marked) (hrest : rest ⊆ marked) : AreFrom names rest :=
  fun a ha => h a (hrest ha)

namespace Grammar

/-- Arguments are marked one by one. -/
theorem texts_of_roles {args : List Text} (h : g.roles args = .ok marked) :
    marked.map (·.1) = args := by
  induction args generalizing marked with
  | nil =>
    obtain rfl := Except.ok.inj h
    rfl
  | cons t rest ih =>
    rw [roles] at h
    split at h
    next =>
      obtain rfl := Except.ok.inj h
      rw [List.map_cons, List.map_map]
      exact congrArg (t :: ·) (List.map_id _)
    next =>
      obtain ⟨role, -, h⟩ := Outcome.bind_eq_ok.mp h
      obtain ⟨marked', hrest, h⟩ := Outcome.bind_eq_ok.mp h
      obtain rfl := Except.ok.inj h
      exact congrArg (t :: ·) (ih hrest)

/-! ## Steps -/

/-- An option leaves the operands as they are. -/
theorem takeOption_keeps {o : OptionSpec} {glued : Option Glued}
    (h : takeOption o glued marked s = .ok (some s', rest)) :
    s'.operands = s.operands ∧ rest ⊆ marked := by
  have hchoose : ∀ {allowed : List Text} {value : Text} {after : List (Text × Role)},
      (if value = separator then
          .ok (some { s with choices := s.choices ++ [(o.title, none)] }, after)
        else if allowed.contains value then
          .ok (some { s with choices := s.choices ++ [(o.title, some value)] }, after)
        else Except.error (UsageError.invalidChoice o.title value allowed)) =
          .ok (some s', rest) → s'.operands = s.operands ∧ rest = after := by
    intro allowed value after h
    split at h
    next => cases h; exact ⟨rfl, rfl⟩
    next =>
      split at h
      next => cases h; exact ⟨rfl, rfl⟩
      next => cases h
  unfold takeOption at h
  dsimp only at h
  split at h
  -- the value is glued to the option
  next =>
    obtain ⟨hoperands, rfl⟩ := hchoose h
    exact ⟨hoperands, List.Subset.refl _⟩
  next =>
    obtain ⟨hoperands, rfl⟩ := hchoose h
    exact ⟨hoperands, List.Subset.refl _⟩
  -- the value is the next argument
  next =>
    split at h
    next =>
      obtain ⟨hoperands, rfl⟩ := hchoose h
      exact ⟨hoperands, List.subset_cons_self _ _⟩
    next => cases h
  -- there is no value
  next =>
    split at h
    next => cases h
    next =>
      split at h
      next => cases h
      next => cases h; exact ⟨rfl, List.Subset.refl _⟩

theorem takeOperand?_keeps {value : Option Text} (h : takeOperand? marked = some (value, rest)) :
    rest ⊆ marked ∧ ∀ t ∈ value, t ∈ marked.map (·.1) := by
  unfold takeOperand? at h
  dsimp only at h
  split at h
  next t after hdrop =>
    obtain ⟨hvalue, hrest⟩ := Prod.mk.inj (Option.some.inj h)
    have hsub : (t, Role.operand) :: after ⊆ marked := hdrop ▸ List.drop_subset _ _
    have hafter : after ⊆ marked := List.Subset.trans (List.subset_cons_self _ _) hsub
    subst hvalue hrest
    refine ⟨List.Subset.trans (List.drop_subset _ _) hafter, fun u hu => ?_⟩
    split at hu
    next => cases hu
    next =>
      cases hu
      exact List.mem_map_of_mem (hsub (List.mem_cons_self ..))
  next => cases h

theorem takeOperands_keeps (wanted : Nat) (marked : List (Text × Role)) :
    (takeOperands wanted marked).2 ⊆ marked ∧
      ∀ t, some t ∈ (takeOperands wanted marked).1 → t ∈ marked.map (·.1) := by
  induction wanted generalizing marked with
  | zero => exact ⟨List.Subset.refl _, nofun⟩
  | succ wanted ih =>
    rw [takeOperands]
    split
    next => exact ⟨List.Subset.refl _, nofun⟩
    next value rest hone =>
      obtain ⟨hrest, hvalue⟩ := takeOperand?_keeps hone
      obtain ⟨hlast, hvalues⟩ := ih rest
      refine ⟨List.Subset.trans hlast hrest, fun t ht => ?_⟩
      rcases List.mem_cons.mp ht with heq | ht
      · exact hvalue t heq.symm
      · exact List.map_subset _ hrest (hvalues t ht)

theorem takeFront_isFrom (hmarked : AreFrom names marked) (hs : s.IsFrom names) :
    AreFrom names (g.takeFront marked s).1 ∧ (g.takeFront marked s).2.IsFrom names := by
  obtain ⟨hrest, hvalues⟩ := takeOperands_keeps (g.operands.length - s.operands.length) marked
  refine ⟨hmarked.mono hrest, fun t ht => ?_⟩
  rcases List.mem_append.mp ht with ht | ht
  · exact hs t ht
  · obtain ⟨a, ha, rfl⟩ := List.mem_map.mp (hvalues t ht)
    exact hmarked a ha

/-! ## Runs -/

/-- What is taken in the end comes from where the arguments come from. -/
theorem takeAll_isFrom {fuel : Nat} (h : g.takeAll fuel marked s = .ok (some s'))
    (hmarked : AreFrom names marked) (hs : s.IsFrom names) : s'.IsFrom names := by
  induction fuel generalizing marked s with
  | zero =>
    obtain rfl := Option.some.inj (Except.ok.inj h)
    exact hs
  | succ fuel ih =>
    obtain ⟨hrest, hfront⟩ := takeFront_isFrom (g := g) hmarked hs
    rw [takeAll.eq_def] at h
    dsimp only at h
    split at h
    -- no option is left: the operands are taken at once
    next =>
      obtain rfl := Option.some.inj (Except.ok.inj h)
      exact hfront
    next =>
      split at h
      next =>
        obtain rfl := Option.some.inj (Except.ok.inj h)
        exact hs
      next => exact ih h (hmarked.mono (List.subset_cons_self _ _)) hs
      next o glued after =>
        split at h
        next => cases h
        next => cases h
        next s₁ rest₁ hoption =>
          obtain ⟨hoperands, hsub⟩ := takeOption_keeps hoption
          refine ih h (hmarked.mono (List.Subset.trans hsub (List.subset_cons_self _ _))) ?_
          rwa [Taken.IsFrom, hoperands]
      next =>
        split at h
        next => exact ih h hrest hfront
        next => exact ih h (hmarked.mono (List.drop_subset _ _)) hs

/-- The operands that a grammar reads are arguments. -/
theorem read_isFrom {args : List Text} (h : g.read args = .ok s) : s.IsFrom args := by
  obtain ⟨marked, hmarked, h⟩ := Outcome.bind_eq_ok.mp h
  obtain ⟨taken, htaken, h⟩ := Outcome.bind_eq_ok.mp h
  have hfrom : AreFrom args marked := by
    intro a ha
    rw [← texts_of_roles (Outcome.mapError_eq_ok.mp hmarked)]
    exact List.mem_map_of_mem ha
  split at h
  next => cases h
  next s' =>
    have hs' := takeAll_isFrom (Outcome.mapError_eq_ok.mp htaken) hfrom nofun
    split at h
    next => exact Except.ok.inj h ▸ hs'
    next => cases h

/-- What stands behind the name of a command, and the name itself, are arguments. -/
theorem takeCommand_subset {extras extras' args : List Text}
    (h : g.takeCommand marked extras = .ok (args, extras')) : args ⊆ marked.map (·.1) := by
  induction marked generalizing extras with
  | nil => cases h
  | cons a rest ih =>
    obtain ⟨t, role⟩ := a
    rw [takeCommand.eq_def] at h
    dsimp only at h
    split at h
    next => exact List.Subset.trans (ih h) (List.subset_cons_self _ _)
    next =>
      split at h
      next => cases h
      next => cases h
      next => exact List.Subset.trans (ih h) (List.subset_cons_self _ _)
    next =>
      split at h
      next => cases h
      next => cases h; exact List.Subset.refl _
    next => cases h; exact List.Subset.refl _

theorem readCommand_subset {commands args rest extras : List Text} {name : Text}
    (h : g.readCommand commands args = .ok (name, rest, extras)) : rest ⊆ args := by
  obtain ⟨marked, hmarked, h⟩ := Outcome.bind_eq_ok.mp h
  obtain ⟨⟨taken, extras'⟩, htaken, h⟩ := Outcome.bind_eq_ok.mp h
  have hsub := takeCommand_subset htaken
  rw [texts_of_roles (Outcome.mapError_eq_ok.mp hmarked)] at hsub
  split at h
  next => cases h
  next hcons =>
    obtain ⟨rfl, -⟩ := Prod.mk.inj hcons
    split at h
    next =>
      obtain ⟨-, hpair⟩ := Prod.mk.inj (Except.ok.inj h)
      obtain ⟨rfl, -⟩ := Prod.mk.inj hpair
      exact List.Subset.trans (List.subset_cons_self _ _) hsub
    next => cases h

end Grammar

namespace Command

theorem mem_of_operand {i : Nat} {t : Text} (hs : s.IsFrom names) (h : operand s i = some t) :
    t ∈ names := by
  rw [operand, Option.join_eq_some_iff] at h
  exact hs t (List.mem_of_getElem? h)

/-- **The files of a command are arguments.** -/
theorem files_subset_of_read {args : List Text} {c : Command} (h : read args = .ok c) :
    c.files ⊆ args := by
  obtain ⟨⟨name, rest, extras⟩, hcommand, h⟩ := Outcome.bind_eq_ok.mp h
  obtain ⟨taken, htaken, h⟩ := Outcome.bind_eq_ok.mp h
  have hrest := Grammar.readCommand_subset hcommand
  have hfrom := Grammar.read_isFrom htaken
  have hoperand : ∀ {i : Nat} {t : Text}, operand taken i = some t → t ∈ args :=
    fun hi => hrest (mem_of_operand hfrom hi)
  split at h
  next =>
    cases h
    intro t ht
    split at ht
    next => exact hoperand (Option.mem_toList.mp ht)
    next =>
      rcases List.mem_append.mp ht with ht | ht
      · exact hoperand (Option.mem_toList.mp ht)
      · exact hoperand (Option.mem_toList.mp ht)
  next => cases h

end Command

end TopologyAudit.CommandLine
