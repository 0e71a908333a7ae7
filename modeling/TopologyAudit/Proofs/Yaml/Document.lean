import TopologyAudit.Proofs.Yaml.Shape
import TopologyAudit.Yaml.Document

/-!
# Why documents break down

A YAML text breaks down for one of three reasons (`Document.cause_of_broken`): an escape
with eight digits, a plain scalar with very many colons, or, if there are tags in it, a
node whose conversion breaks.
-/

namespace TopologyAudit.Yaml

open CodePoint (colon)

namespace Graph

/-- A node of a graph. -/
def IsNode (g : Graph) (n : Node) : Prop := ∃ id, n = node g.nodes id

/-- What merges leave of a node: its kind, the text that it has, and its tag, unless it has
become a text. -/
structure IsLeft (g : Graph) (n : Node) (id : NodeId) : Prop where
  kind : n.content.kind = (node g.nodes id).content.kind
  text : ∀ text, n.content = .scalar text → (node g.nodes id).content = .scalar text
  tag : n.tag = (node g.nodes id).tag ∨ n.tag = Tag.str

theorem survives_isLeft (g : Graph) : Survives fun n => ∃ id, g.IsLeft n id := by
  constructor
  · intro n list hr hkind
    obtain ⟨id, h⟩ := hr
    exact ⟨id, ⟨hkind.symm.trans h.kind, nofun, h.tag⟩⟩
  · intro n hr _
    obtain ⟨id, h⟩ := hr
    exact ⟨id, ⟨h.kind, h.text, Or.inr rfl⟩⟩

/-- What breaks after merges breaks before them: the nodes that have changed their tags are
texts, and texts do not break. -/
theorem isNode_of_isLeft {g : Graph} {b : Breakdown}
    (h : BreaksAmong (fun n => ∃ id, g.IsLeft n id) b) : BreaksAmong g.IsNode b := by
  cases h with
  | scalar hn hm hcontent hsame h =>
    obtain ⟨i, hn⟩ := hn
    have htag := hn.tag.resolve_right fun hstr =>
      Convert.not_breaks (hstr ▸ by decide) h
    rw [htag] at h
    -- the text is the node's own, or behind a default key of a mapping
    rcases hsame with rfl | hkind
    · exact BreaksAmong.scalar ⟨i, rfl⟩ ⟨i, rfl⟩ (hn.text _ hcontent) (Or.inl rfl) h
    · obtain ⟨j, hm⟩ := hm
      exact BreaksAmong.scalar ⟨i, rfl⟩ ⟨j, rfl⟩ (hm.text _ hcontent)
        (Or.inr (hn.kind.symm.trans hkind)) h
  | timestampInMapping hn htag hkind =>
    obtain ⟨i, hn⟩ := hn
    have hsame := hn.tag.resolve_right fun hstr =>
      absurd (htag.symm.trans hstr) (by decide)
    exact BreaksAmong.timestampInMapping ⟨i, rfl⟩ (hsame.symm.trans htag)
      (hn.kind.symm.trans hkind)

/-- Of plain nodes only long doubles in base sixty break. -/
theorem eq_of_isPlainIn {t : Text} {b : Breakdown} (h : BreaksAmong (Node.IsPlainIn t) b) :
    b = .hugePlaceValue ∧ Convert.placeLimit ≤ t.count colon := by
  have htag : ∀ {n : Node}, n.IsPlainIn t → n.content.kind = .mapping → n.tag = Tag.map := by
    intro n hn hkind
    unfold Node.IsPlainIn at hn
    cases hcontent : n.content with
    | scalar text | sequence items =>
      rw [hcontent] at hkind
      cases hkind
    | mapping entries =>
      rw [hcontent] at hn
      exact hn
  cases h with
  | scalar hn hm hcontent hsame h =>
    rcases hsame with rfl | hkind
    · unfold Node.IsPlainIn at hm
      rw [hcontent] at hm
      obtain ⟨hof, hplain⟩ := hm b h
      rw [hof] at h
      obtain ⟨hb, hcount⟩ := h.of_ofContent hplain.getLast?_ne
      exact ⟨hb, Nat.le_trans hcount hplain.count_le⟩
    · rw [htag hn hkind] at h
      exact absurd h (Convert.not_breaks (by decide))
  | timestampInMapping hn htimestamp hkind =>
    rw [htag hn hkind] at htimestamp
    exact absurd htimestamp (by decide)

end Graph

namespace Document

/-- Why a text breaks down. -/
inductive Cause (t : Text) : Breakdown → Prop
  /-- It has an escape with eight digits. -/
  | escape (h : [CodePoint.ofChar '\\', CodePoint.ofChar 'U'] <:+: t) : Cause t .hugeEscape
  /-- It has colons for a double in base sixty with very many places. -/
  | places (h : Convert.placeLimit ≤ t.count colon) : Cause t .hugePlaceValue
  /-- It has tags, and a node of its graph breaks the conversion for its tag. -/
  | tagged {b : Breakdown} {g : Graph} (hmark : CodePoint.ofChar '!' ∈ t)
      (hread : Graph.read t = .ok (some g)) (h : BreaksAmong g.IsNode b) : Cause t b

theorem read_ends (order : SetOrder) (depth : Nat) (t : Text) :
    Ends (Cause t) (fun _ => True) (read order depth t) := by
  have hescape : ∀ b, EscapeIn t b → Cause t b := by
    intro b hr
    obtain ⟨rfl, h⟩ := hr
    exact Cause.escape h
  have hgraph := (Graph.read_ends t).attach.mono hescape fun _ h => h
  refine Ends.bind hgraph ?_
  intro found hr
  obtain ⟨hread, hplain⟩ := hr
  cases found with
  | none => exact Ends.ok trivial
  | some g =>
    refine Ends.bind (P := fun _ => True) ?_ fun _ _ => Ends.ok trivial
    -- with tags in the text any node may break; without them all nodes are plain
    by_cases hmark : CodePoint.ofChar '!' ∈ t
    · have hleft : Graph.Holds (fun n => ∃ id, g.IsLeft n id) g.nodes :=
        fun id => ⟨id, ⟨rfl, fun _ h => h, Or.inl rfl⟩⟩
      refine (Graph.shapes_ends (Graph.survives_isLeft g) hleft).mono ?_ fun _ h => h
      intro b hb
      exact Cause.tagged hmark hread (Graph.isNode_of_isLeft hb)
    · refine (Graph.shapes_ends Graph.survives_isPlainIn (hplain hmark g rfl)).mono ?_
        fun _ h => h
      intro b hb
      obtain ⟨rfl, hcount⟩ := Graph.eq_of_isPlainIn hb
      exact Cause.places hcount

/-- **A text breaks down only for a cause.** -/
theorem cause_of_broken {order : SetOrder} {depth : Nat} {t : Text} {b : Breakdown}
    (h : read order depth t = .error (.broken b)) : Cause t b :=
  (read_ends order depth t).breakdown h

end Document

end TopologyAudit.Yaml
