import Mathlib.Data.List.Basic
import TopologyAudit.CommandLine.Command
import TopologyAudit.Record.Topology

/-!
# Arguments that ask for JSON

The name of a command, files, a format, and the option for JSON are read as the command with
just these (`read_analyze`, `read_diff`). All that is asked of the files is that the grammars
take their names for operands; a name that does not begin with a dash always is one.
-/

namespace TopologyAudit.CommandLine

variable {g : Grammar} {f : SourceFormat} {t : Text} {args files : List Text}
  {marked : List (Text × Role)}

namespace Grammar

/-- That a grammar takes an argument for an operand. -/
structure IsOperand (g : Grammar) (t : Text) : Prop where
  role : g.role t = .ok .operand
  ne_separator : t ≠ separator

instance (g : Grammar) (t : Text) : Decidable (g.IsOperand t) :=
  decidable_of_iff (g.role t = .ok .operand ∧ t ≠ separator)
    ⟨fun h => ⟨h.1, h.2⟩, fun h => ⟨h.role, h.ne_separator⟩⟩

theorem isOperand_of_head? (h : t.head? ≠ some (CodePoint.ofChar '-')) : g.IsOperand t := by
  refine ⟨?_, ?_⟩
  · rw [role, if_pos]
    simpa using h
  · rintro rfl
    exact h rfl

/-- Operands as they are marked. -/
def operandsOf (files : List Text) : List (Text × Role) := files.map fun t => (t, .operand)

theorem roles_operands (h : ∀ t ∈ files, g.IsOperand t) (hrest : g.roles args = .ok marked) :
    g.roles (files ++ args) = .ok (operandsOf files ++ marked) := by
  induction files with
  | nil => exact hrest
  | cons t files ih =>
    obtain ⟨ht, hfiles⟩ := List.forall_mem_cons.mp h
    rw [List.cons_append, roles, if_neg ht.ne_separator, ht.role, ih hfiles]
    rfl

/-! ## Taking operands -/

theorem takeOperand?_operand (hne : t ≠ separator) (hnext : ∀ a ∈ marked.head?, a.2 ≠ .separator) :
    takeOperand? ((t, .operand) :: marked) = some (some t, marked) := by
  have hafter : (marked.takeWhile fun a => a.2 == .separator) = [] := by
    cases marked with
    | nil => rfl
    | cons a _ => rw [List.takeWhile_cons_of_neg (by simpa using hnext a rfl)]
  have hfirst : ((Role.operand == Role.separator) = true) = False := by decide
  simp only [takeOperand?, List.takeWhile_cons, hfirst, if_false, List.length_nil, List.drop_zero,
    hafter, hne, decide_false, Bool.false_and, Bool.false_eq_true]

theorem takeOperands_nil (wanted : Nat) : takeOperands wanted [] = ([], []) := by
  cases wanted <;> rfl

/-- As many operands as there are in front are taken. -/
theorem takeOperands_operands (h : ∀ t ∈ files, t ≠ separator)
    (hnext : ∀ a ∈ marked.head?, a.2 ≠ .separator) :
    takeOperands files.length (operandsOf files ++ marked) = (files.map some, marked) := by
  induction files with
  | nil => rfl
  | cons t files ih =>
    obtain ⟨ht, hfiles⟩ := List.forall_mem_cons.mp h
    have hafter : ∀ a ∈ (operandsOf files ++ marked).head?, a.2 ≠ .separator := by
      cases files with
      | nil => exact hnext
      | cons u files =>
        rintro a ⟨⟩
        exact nofun
    have hone : takeOperand? (operandsOf (t :: files) ++ marked) =
        some (some t, operandsOf files ++ marked) :=
      takeOperand?_operand ht hafter
    rw [List.length_cons, takeOperands, hone]
    simp only [ih hfiles, List.map_cons]

end Grammar

namespace Command

open Grammar

/-! ## The options -/

/-- The option for a format with its value, and the option for JSON. -/
def jsonOptions (f : SourceFormat) : List Text := ["--format", f.name, "--json"]

/-- What these are to the grammars of both commands. -/
def markedOptions (f : SourceFormat) : List (Text × Role) :=
  [("--format", .option formatOption none), (f.name, .operand), ("--json", .option jsonOption none)]

/-- What these are to the grammar in front of a command, which has neither option. -/
def strayOptions (f : SourceFormat) : List (Text × Role) :=
  [("--format", .stray), (f.name, .operand), ("--json", .stray)]

theorem roles_jsonOptions (f : SourceFormat) :
    grammar.roles (jsonOptions f) = .ok (strayOptions f) ∧
      analyzeGrammar.roles (jsonOptions f) = .ok (markedOptions f) ∧
        diffGrammar.roles (jsonOptions f) = .ok (markedOptions f) := by
  cases f <;> exact ⟨rfl, rfl, rfl⟩

/-- What is taken of files with the options behind them. -/
def takenOf (files : List Text) (f : SourceFormat) : Taken where
  operands := files.map some
  choices := [(formatOption.title, some f.name)]
  flags := [jsonOption.title]
  extras := []

theorem takeOption_format (f : SourceFormat) (rest : List (Text × Role)) (s : Taken) :
    takeOption formatOption none ((f.name, .operand) :: rest) s =
      .ok (some { s with choices := s.choices ++ [(formatOption.title, some f.name)] }, rest) := by
  cases f <;> rfl

theorem takeOption_json (rest : List (Text × Role)) (s : Taken) :
    takeOption jsonOption none rest s =
      .ok (some { s with flags := s.flags ++ [jsonOption.title] }, rest) :=
  rfl

/-- The options are taken one after the other, and nothing is left over. -/
theorem takeAll_markedOptions (fuel : Nat) :
    g.takeAll (fuel + 3) (markedOptions f) { Taken.empty with operands := files.map some } =
      .ok (some (takenOf files f)) := by
  have hoption : ∀ (o : OptionSpec) (name : Text) (rest : List (Text × Role)),
      (!((name, Role.option o none) :: rest).any isOption) = false := by
    intro o name rest
    rfl
  rw [markedOptions, takeAll, hoption, if_neg Bool.false_ne_true]
  simp only [takeOption_format]
  rw [takeAll, hoption, if_neg Bool.false_ne_true]
  simp only [takeOption_json]
  rw [takeAll, List.any_nil, Bool.not_false, if_pos rfl, takeFront, takeOperands_nil]
  simp only [List.map_nil, List.append_nil]
  rfl

/-- Operands in front of the options are taken first, if they are all that is wanted. -/
theorem takeAll_operands (fuel : Nat) (hne : files ≠ [])
    (h : takeOperands g.operands.length (operandsOf files ++ markedOptions f) =
      (files.map some, markedOptions f)) :
    g.takeAll (fuel + 4) (operandsOf files ++ markedOptions f) Taken.empty =
      .ok (some (takenOf files f)) := by
  obtain ⟨t, more, rfl⟩ := List.exists_cons_of_ne_nil hne
  have hcons : operandsOf (t :: more) ++ markedOptions f =
      (t, .operand) :: (operandsOf more ++ markedOptions f) := rfl
  rw [hcons] at h ⊢
  have hoption : ((t, Role.operand) :: (operandsOf more ++ markedOptions f)).any isOption = true := by
    rw [List.any_cons, List.any_append, Bool.or_eq_true, Bool.or_eq_true]
    exact .inr (.inr rfl)
  have hfront : g.takeFront ((t, .operand) :: (operandsOf more ++ markedOptions f)) Taken.empty =
      (markedOptions f, { Taken.empty with operands := (t :: more).map some }) := by
    rw [takeFront]
    simp only [Taken.empty, List.length_nil, Nat.sub_zero, h, List.nil_append]
  have hshorter : (markedOptions f).length <
      ((t, Role.operand) :: (operandsOf more ++ markedOptions f)).length := by
    rw [List.length_cons, List.length_append]
    omega
  rw [takeAll.eq_def]
  simp only [hoption, Bool.not_true, Bool.false_eq_true, if_false, hfront, if_pos hshorter]
  exact takeAll_markedOptions fuel

/-- The grammar of a command reads as many files as it wants, with the options behind them. -/
theorem read_files (hoptions : g.roles (jsonOptions f) = .ok (markedOptions f))
    (hfiles : ∀ t ∈ files, g.IsOperand t) (hlength : files.length = g.operands.length)
    (hne : files ≠ []) : g.read (files ++ jsonOptions f) = .ok (takenOf files f) := by
  have htaken := @takeOperands_operands files (markedOptions f)
    (fun t ht => (hfiles t ht).ne_separator) (by rintro a ⟨⟩; exact nofun)
  rw [hlength] at htaken
  have hfuel : (operandsOf files ++ markedOptions f).length + 1 =
      (operandsOf files).length + 4 := by
    rw [List.length_append]
    rfl
  have hall := takeAll_operands (operandsOf files).length hne htaken
  have hnone : g.operands.drop (takenOf files f).operands.length = [] := by
    rw [takenOf, List.length_map, hlength, List.drop_length]
  rw [Grammar.read, roles_operands hfiles hoptions]
  simp only [Except.mapError, bind, Except.bind, hfuel, hall, hnone]

/-! ## The commands -/

/-- The arguments of a command that names files. -/
def arguments (name : Text) (files : List Text) (f : SourceFormat) : List Text :=
  name :: (files ++ jsonOptions f)

/-- In front of a command only its name counts. -/
theorem readCommand_arguments {name : Text} (hname : name ∈ [analyzeName, diffName])
    (hfiles : ∀ t ∈ files, grammar.IsOperand t) :
    grammar.readCommand [analyzeName, diffName] (arguments name files f) =
      .ok (name, files ++ jsonOptions f, []) := by
  have hoperand : grammar.IsOperand name := by
    rcases List.mem_pair.mp hname with rfl | rfl <;> exact isOperand_of_head? (by decide)
  have hroles := roles_operands (List.forall_mem_cons.mpr ⟨hoperand, hfiles⟩)
    (roles_jsonOptions f).1
  have hback : (operandsOf files ++ strayOptions f).map (·.1) = files ++ jsonOptions f := by
    rw [List.map_append, operandsOf, List.map_map]
    exact congrArg₂ _ (List.map_id _) rfl
  have hcommand : grammar.takeCommand (operandsOf (name :: files) ++ strayOptions f) [] =
      .ok (name :: (files ++ jsonOptions f), []) := by
    rw [← hback]
    rfl
  have hcontains : [analyzeName, diffName].contains name = true := List.contains_iff_mem.mpr hname
  rw [readCommand, arguments, ← List.cons_append, hroles]
  simp only [Except.mapError, bind, Except.bind, hcommand, hcontains, if_true]
  rfl

/-- The arguments that ask for an analysis of a file. -/
theorem read_analyze (hroot : grammar.IsOperand t) (hfile : analyzeGrammar.IsOperand t) :
    read (arguments analyzeName [t] f) = .ok (.analyze (some t) (some f.name) none true) := by
  have hcommand := @readCommand_arguments f [t] analyzeName (List.mem_cons_self ..)
    (List.forall_mem_singleton.mpr hroot)
  have htaken := read_files (roles_jsonOptions f).2.1 (List.forall_mem_singleton.mpr hfile) rfl
    (List.cons_ne_nil _ _)
  rw [read, hcommand]
  simp only [bind, Except.bind, if_true, htaken]
  rfl

/-- The arguments that ask for a comparison of two files. -/
theorem read_diff {t u : Text} (hroot : ∀ x ∈ [t, u], grammar.IsOperand x)
    (hfiles : ∀ x ∈ [t, u], diffGrammar.IsOperand x) :
    read (arguments diffName [t, u] f) = .ok (.diff (some t) (some u) (some f.name) true) := by
  have hcommand := @readCommand_arguments f [t, u] diffName
    (List.mem_cons_of_mem _ (List.mem_cons_self ..)) hroot
  have hname : diffName ≠ analyzeName := by decide
  have htaken := read_files (roles_jsonOptions f).2.2 hfiles rfl (List.cons_ne_nil _ _)
  rw [read, hcommand]
  simp only [bind, Except.bind, if_neg hname, htaken]
  rfl

end Command

end TopologyAudit.CommandLine
