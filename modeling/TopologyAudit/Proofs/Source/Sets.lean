import TopologyAudit.Proofs.Source.Parse
import TopologyAudit.Report.Comparison

/-!
# Sets in configs

A text says which members a set has, and the process that loads it says in which order they come.
So two processes may come to different results on one text; where they go through its sets in
the same orders, they come to the same one (`Topology.parse_congr`). A text whose sets have no
more than one member leaves no choice (`SetOrder.agreesOn_of_length_le_one`).
-/

namespace TopologyAudit

namespace Yaml

/-- The members of a set, as they are written. -/
def Shape.members? : Shape → Option (List Scalar)
  | .set members => some members
  | _ => none

/-- The sets of a YAML text, each with its members as they are written. -/
def Document.sets (t : Text) : List (List Scalar) :=
  match Graph.read t with
  | .ok (some g) =>
    match g.shapes with
    | .ok shapes => shapes.toList.filterMap fun shape => shape.bind Shape.members?
    | .error _ => []
  | _ => []

end Yaml

/-- The sets of a text of a format. JSON has none. -/
def SourceFormat.sets : SourceFormat → Text → List (List Scalar)
  | .json, _ => []
  | .yaml, t => Yaml.Document.sets t

/-- That two processes go through the sets of a text in the same orders. -/
def SetOrder.AgreesOn (a b : SetOrder) (f : SourceFormat) (t : Text) : Prop :=
  ∀ members ∈ f.sets t, a.arrange members = b.arrange members

variable {a b : SetOrder} {t : Text}

/-- There is only one order for the members of a set that has no more than one. -/
theorem SetOrder.agreesOn_of_length_le_one {f : SourceFormat}
    (h : ∀ members ∈ f.sets t, members.length ≤ 1) : a.AgreesOn b f t := by
  intro members hmem
  match members, h members hmem with
  | [], _ => rw [List.perm_nil.mp (a.perm []), List.perm_nil.mp (b.perm [])]
  | [m], _ => rw [List.perm_singleton.mp (a.perm [m]), List.perm_singleton.mp (b.perm [m])]

namespace Yaml

/-- Only a set takes its tree from the order of its members. -/
theorem Shape.unfold_congr {shape : Shape}
    (h : ∀ members ∈ shape.members?, a.arrange members = b.arrange members)
    (treeOf : NodeId → Tree) : shape.unfold a treeOf = shape.unfold b treeOf := by
  cases shape with
  | set members => rw [unfold, unfold, h members rfl]
  | scalar value => rfl
  | list items => rfl
  | pairs items => rfl
  | mapping entries => rfl

theorem Shape.unfoldAll_congr {shapes : Array (Option Shape)}
    (h : ∀ shape ∈ shapes, ∀ members ∈ shape.bind Shape.members?,
      a.arrange members = b.arrange members) (depth : Nat) :
    unfoldAll a shapes depth = unfoldAll b shapes depth := by
  induction depth with
  | zero => rfl
  | succ depth ih =>
    rw [unfoldAll, unfoldAll, ih]
    refine Array.map_congr_left fun shape hshape => ?_
    cases shape with
    | none => rfl
    | some shape => exact unfold_congr (h _ hshape) _

theorem Document.read_congr (h : ∀ members ∈ sets t, a.arrange members = b.arrange members)
    (depth : Nat) : read a depth t = read b depth t := by
  unfold read
  cases hgraph : Graph.read t with
  | error e => rfl
  | ok found =>
    cases found with
    | none => rfl
    | some g =>
      simp only [bind, Except.bind]
      cases hshapes : g.shapes with
      | error e => rfl
      | ok shapes =>
        have hsets : sets t = shapes.toList.filterMap fun shape => shape.bind Shape.members? := by
          simp only [sets, hgraph, hshapes]
        have hunfold : Shape.unfoldAll a shapes depth = Shape.unfoldAll b shapes depth := by
          refine Shape.unfoldAll_congr (fun shape hshape members hmem => h members ?_) depth
          rw [hsets]
          exact List.mem_filterMap.mpr ⟨shape, Array.mem_toList_iff.mpr hshape, hmem⟩
        simp only [hunfold]

end Yaml

theorem SourceFormat.load_congr {f : SourceFormat} (h : a.AgreesOn b f t) :
    f.load a t = f.load b t := by
  cases f with
  | json => rfl
  | yaml => rw [load, load, Yaml.Document.read_congr h]

/-- **Sets are all that a process adds to a text.** Processes that go through the sets of a text in
the same orders come to the same result on it. -/
theorem Topology.parse_congr {format : Value} {f : SourceFormat}
    (hf : SourceFormat.ofValue format = .ok f) (h : a.AgreesOn b f t) :
    parse a format t = parse b format t := by
  rw [parse_of_known hf, parse_of_known hf, parseAs, parseAs, SourceFormat.load_congr h]

theorem Analysis.run_congr {format : Value} {f : SourceFormat}
    (hf : SourceFormat.ofValue format = .ok f) (h : a.AgreesOn b f t) :
    run a format t = run b format t := by
  rw [run, run, Topology.parse_congr hf h]

theorem Comparison.run_congr {format named : Value} {f g : SourceFormat} {old new : Text}
    (hf : SourceFormat.ofValue format = .ok f) (hg : SourceFormat.ofValue named = .ok g)
    (hold : a.AgreesOn b f old) (hnew : a.AgreesOn b g new) :
    run a format named old new = run b format named old new := by
  rw [run, run, Topology.parse_congr hf hold, Topology.parse_congr hg hnew]

end TopologyAudit
