import TopologyAudit.Proofs.Text.Case
import TopologyAudit.Proofs.Yaml.Cursor
import TopologyAudit.Proofs.Yaml.Ends
import TopologyAudit.Yaml.Token.Property

/-!
# Readers of directives, tags, anchors and aliases

None of these readers breaks down, and each leaves its cursor within the text.
-/

namespace TopologyAudit.Yaml

/-- A plain scalar of a text: it does not end in a line feed, and its colons are among
those of the text. -/
structure IsPlainOf (t value : Text) : Prop where
  getLast?_ne : value.getLast? ≠ some (CodePoint.ofChar '\n')
  count_le : value.count CodePoint.colon ≤ t.count CodePoint.colon

/-- What a text needs to hold for a lexeme to be found in it, as far as tags depend on
it. -/
def Lexeme.IsFrom (t : Text) : Lexeme → Prop
  | .tag _ _ => CodePoint.ofChar '!' ∈ t
  | .scalar text .plain => IsPlainOf t text
  | _ => True

variable {B : Breakdown → Prop} {t : Text} {c : Cursor}

theorem unexpected_ends {α : Type} {P : α → Prop} {activity : Activity} {began : Mark}
    {what : Expected} : Ends B P (unexpected activity began what c) :=
  Ends.during

/-! ## Locations -/

theorem takeUriBytes_ends {owner : Owner} {began : Mark} {fuel : Text} {acc : List UInt8}
    (h : c.Within t) :
    Ends B (fun r => r.2.Within t) (takeUriBytes owner began fuel c acc) := by
  induction fuel generalizing c acc with
  | nil => exact Ends.ok h
  | cons _ fuel ih =>
    unfold takeUriBytes
    split
    next =>
      dsimp only
      split
      next => exact ih (h.next.advance 2)
      next => exact Ends.during
      next => exact Ends.during
    next => exact Ends.ok h

theorem takeUriEscapes_ends {owner : Owner} {began : Mark} (h : c.Within t) :
    Ends B (fun r => r.2.Within t) (takeUriEscapes owner began c) := by
  refine Ends.bind (takeUriBytes_ends h) ?_
  intro r hafter
  obtain ⟨bytes, after⟩ := r
  dsimp only
  split
  next => exact Ends.ok hafter
  next => exact Ends.during

theorem takeUriFrom_ends {owner : Owner} {began : Mark} {fuel acc : Text} (h : c.Within t) :
    Ends B (fun r => r.2.Within t) (takeUriFrom owner began fuel c acc) := by
  induction fuel generalizing c acc with
  | nil => exact Ends.ok h
  | cons _ fuel ih =>
    unfold takeUriFrom
    split
    next run after heq =>
      have hafter : after.Within t := by
        have hw := h.takeWhile (p := isUriCharacter)
        rw [heq] at hw
        exact hw
      split
      next =>
        refine Ends.bind (takeUriEscapes_ends hafter) ?_
        intro r hafter
        obtain ⟨decoded, after⟩ := r
        exact ih hafter
      next => exact Ends.ok hafter

theorem takeUri_ends {owner : Owner} {began : Mark} (h : c.Within t) :
    Ends B (fun r => r.2.Within t) (takeUri owner began c) := by
  refine Ends.bind (takeUriFrom_ends h) ?_
  intro r hafter
  obtain ⟨uri, after⟩ := r
  dsimp only
  split
  next => exact unexpected_ends
  next => exact Ends.ok hafter

/-! ## Handles, tags and names -/

theorem takeHandle_ends {owner : Owner} {began : Mark} (h : c.Within t) :
    Ends B (fun r => r.2.Within t) (takeHandle owner began c) := by
  unfold takeHandle
  dsimp only
  split
  next => exact unexpected_ends
  next =>
    split
    next => exact Ends.ok h.next
    next =>
      split
      next => exact Ends.ok h.next.takeWhile.next
      next => exact unexpected_ends

/-- What begins with an exclamation mark is a tag. -/
theorem scanTag_ends (h : c.Within t) (hc : c.peek = CodePoint.ofChar '!') :
    Ends B (fun r => r.1.IsFrom t ∧ r.2.Within t) (scanTag c) := by
  have hmark : CodePoint.ofChar '!' ∈ t := h.mem_of_peek hc (by decide)
  unfold scanTag
  dsimp only
  -- the tag in one of its three notations, and then what may follow it
  refine Ends.bind (P := fun r => r.1.IsFrom t ∧ r.2.Within t) ?_ ?_
  · split
    next =>
      refine Ends.bind (takeUri_ends (h.advance 2)) ?_
      intro r hafter
      obtain ⟨uri, after⟩ := r
      dsimp only
      split
      next => exact Ends.ok ⟨hmark, hafter.next⟩
      next => exact unexpected_ends
    next =>
      split
      next => exact Ends.ok ⟨hmark, h.next⟩
      next =>
        -- with a handle or without one, the suffix is read alike
        have hsuffix : ∀ r : Text × Cursor, r.2.Within t →
            Ends B (fun r => r.1.IsFrom t ∧ r.2.Within t)
              (takeUri .tag c.mark r.2 >>= fun s => pure (Lexeme.tag (some r.1) s.1, s.2)) := by
          intro r hr
          refine Ends.bind (takeUri_ends hr) ?_
          intro s hs
          exact Ends.ok ⟨hmark, hs⟩
        split
        next => exact Ends.bind (takeHandle_ends h) hsuffix
        next => exact Ends.bind (Ends.ok h.next) hsuffix
  · intro r hfrom
    obtain ⟨lexeme, after⟩ := r
    dsimp only
    split
    next => exact Ends.ok hfrom
    next => exact unexpected_ends

theorem takeName_ends {activity : Activity} (h : c.Within t) :
    Ends B (fun r => r.2.Within t) (takeName activity c) := by
  unfold takeName
  dsimp only
  split
  next => exact unexpected_ends
  next => exact Ends.ok h.next.takeWhile

/-! ## Directives -/

theorem takeVersionNumber_ends {began : Mark} (h : c.Within t) :
    Ends B (fun r => r.2.Within t) (takeVersionNumber began c) := by
  unfold takeVersionNumber
  dsimp only
  split
  next => exact unexpected_ends
  next =>
    split
    next => exact Ends.ok h.takeWhile
    next => exact Ends.refused _

theorem takeVersion_ends {began : Mark} (h : c.Within t) :
    Ends B (fun r => r.2.Within t) (takeVersion began c) := by
  refine Ends.bind (takeVersionNumber_ends h.skipSpaces) ?_
  intro r hafter
  obtain ⟨major, after⟩ := r
  dsimp only
  split
  next =>
    refine Ends.bind (takeVersionNumber_ends hafter.next) ?_
    intro r hafter
    obtain ⟨minor, after⟩ := r
    dsimp only
    split
    next => exact Ends.ok hafter
    next => exact unexpected_ends
  next => exact unexpected_ends

theorem takeHandleDefinition_ends {began : Mark} (h : c.Within t) :
    Ends B (fun r => r.2.Within t) (takeHandleDefinition began c) := by
  refine Ends.bind (takeHandle_ends h.skipSpaces) ?_
  intro r hafter
  obtain ⟨handle, after⟩ := r
  dsimp only
  split
  next =>
    refine Ends.bind (takeUri_ends hafter.skipSpaces) ?_
    intro r hafter
    obtain ⟨expansion, after⟩ := r
    dsimp only
    split
    next => exact Ends.ok hafter
    next => exact unexpected_ends
  next => exact unexpected_ends

theorem skipLine_ends {activity : Activity} {began : Mark} (h : c.Within t) :
    Ends B (fun after => after.Within t) (skipLine activity began c) := by
  unfold skipLine
  dsimp only
  split
  next => exact Ends.ok h.skipSpaces.skipComment.takeBreak
  next => exact unexpected_ends

theorem scanDirective_ends (h : c.Within t) :
    Ends B (fun r => r.1.IsFrom t ∧ r.2.Within t) (scanDirective c) := by
  have hname := h.next.takeWhile (p := isWord)
  unfold scanDirective
  dsimp only
  split
  next => exact unexpected_ends
  next =>
    -- whatever the directive is, the rest of its line has to be blank
    have hrest : ∀ r : Directive × Cursor, r.2.Within t →
        Ends B (fun r => r.1.IsFrom t ∧ r.2.Within t)
          (skipLine .scanningDirective c.mark r.2 >>= fun after =>
            pure (Lexeme.directive r.1, after)) := by
      intro r hr
      refine Ends.bind (skipLine_ends hr) ?_
      intro after hafter
      exact Ends.ok ⟨trivial, hafter⟩
    split
    next => exact Ends.bind (takeVersion_ends hname) hrest
    next =>
      split
      next => exact Ends.bind (takeHandleDefinition_ends hname) hrest
      next => exact Ends.bind (Ends.ok hname.skipWhile) hrest

end TopologyAudit.Yaml
