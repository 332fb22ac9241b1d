/-
# ProgramModel.Proofs.Collisions -- which inputs may be built together

The output of an input is named after the stem of the input, or after `package` where a path
names no file.  In one directory that name is all there is to an output: outputs are the same
text, and have the same components, exactly when the stems are the same
(`components_outputPath_iff`).  So inputs from different directories and of different
extensions collide, and nothing else does.

A build goes through its inputs and remembers who has taken which output.  As long as the
outputs differ, that is the inputs passed so far (`outputPathsFrom_append`); and a list of
inputs either has different outputs or a first input whose output is taken
(`nodup_or_firstCollision`).  From these two the search succeeds exactly on different stems and
blames exactly the first collision, before anything is read or written
(`collisions_are_refused`).
-/
import Mathlib.Data.List.Induction
import ProgramModel.Proofs.Outputs
import ProgramModel.Proofs.Rearrangement

namespace ProgramModel

set_option autoImplicit false

/-! ## When outputs are the same -/

/-- What the output of an input is named after. -/
def outputStem (input : String) : String := (Path.stem? input).getD "package"

theorem outputName_eq (input : String) : outputName input = outputStem input ++ ".lapp.json" := rfl

variable {directory one other : String}

theorem isProper_outputName (input : String) : Path.isProper (outputName input) = true := by
  have said : outputName input ≠ "" := outputName_ne input (by decide)
  have noDot : outputName input ≠ "." := outputName_ne input (by decide)
  simp [Path.isProper, said, noDot]

theorem outputPath_congr (directory : String) (same : outputStem one = outputStem other) :
    outputPath directory one = outputPath directory other := by
  rw [outputPath, outputPath, outputName_eq, outputName_eq, same]

/-- **Outputs have the same components exactly when they have the same stem.** -/
theorem components_outputPath_iff :
    Path.components (outputPath directory one) = Path.components (outputPath directory other) ↔
      outputStem one = outputStem other := by
  constructor
  · intro same
    obtain ⟨outer, components⟩ := Path.components_join directory
    have ends (input : String) :
        Path.components (outputPath directory input) = outer ++ [outputName input] :=
      components _ (not_mem_outputName input) (isProper_outputName input)
    rw [ends one, ends other] at same
    have names : outputName one = outputName other := by simpa using same
    rw [outputName_eq, outputName_eq] at names
    exact (String.append_left_inj _).mp names
  · intro same
    rw [outputPath_congr directory same]

/-- As texts, outputs are told apart no better than by their components. -/
theorem outputPath_eq_iff :
    outputPath directory one = outputPath directory other ↔ outputStem one = outputStem other := by
  refine ⟨fun same => ?_, outputPath_congr directory⟩
  exact components_outputPath_iff.mp (congrArg Path.components same)

/-- Whether what a list is mapped to differs depends on no more than which members agree. -/
theorem nodup_map_congr {α β γ : Type} {f : α → β} {g : α → γ}
    (agree : ∀ x y, f x = f y ↔ g x = g y) (list : List α) :
    (list.map f).Nodup ↔ (list.map g).Nodup := by
  unfold List.Nodup
  rw [List.pairwise_map, List.pairwise_map]
  exact List.Pairwise.iff fun x y => not_congr (agree x y)

theorem nodup_outputs_iff (directory : String) (inputs : List String) :
    (inputs.map (outputPath directory)).Nodup ↔ (inputs.map outputStem).Nodup :=
  nodup_map_congr (fun _ _ => outputPath_eq_iff) inputs

theorem nodup_components_iff (directory : String) (inputs : List String) :
    ((inputs.map (outputPath directory)).map Path.components).Nodup ↔
      (inputs.map outputStem).Nodup := by
  rw [List.map_map]
  exact nodup_map_congr (fun _ _ => components_outputPath_iff) inputs

/-! ## The first collision -/

/-- The second input is the first one in the list whose output is taken already, and the first
input is the one that took it.  Since all outputs in front of the second input differ, nobody else
has taken it. -/
def FirstCollision (directory : String) (inputs : List String) (first second : String) : Prop :=
  ∃ before between after, inputs = before ++ first :: between ++ second :: after ∧
    ((before ++ first :: between).map (outputPath directory)).Nodup ∧
    outputPath directory first = outputPath directory second

variable {inputs : List String} {first second : String}

/-- Outputs differ, or there is a first collision. -/
theorem nodup_or_firstCollision (directory : String) (inputs : List String) :
    (inputs.map (outputPath directory)).Nodup ∨
      ∃ first second, FirstCollision directory inputs first second := by
  induction inputs using List.reverseRecOn with
  | nil => exact .inl List.nodup_nil
  | append_singleton inputs input ih =>
      rcases ih with distinct | ⟨first, second, before, between, after, rfl, distinct, same⟩
      · by_cases taken : outputPath directory input ∈ inputs.map (outputPath directory)
        · obtain ⟨first, listed, same⟩ := List.mem_map.mp taken
          obtain ⟨before, between, rfl⟩ := List.append_of_mem listed
          exact .inr ⟨first, input, before, between, [], rfl, distinct, same⟩
        · refine .inl ?_
          rw [List.map_append, List.map_singleton, ← List.concat_eq_append, List.nodup_concat]
          exact ⟨taken, distinct⟩
      · refine .inr ⟨first, second, before, between, after ++ [input], ?_, distinct, same⟩
        rw [List.append_assoc, List.cons_append]

/-! ## The search for it -/

/-- What is taken when some inputs have got their outputs; the last of them comes first. -/
def takenBy (directory : String) (earlier : List String) : List (String × String) :=
  earlier.reverse.map fun input => (outputPath directory input, input)

theorem takenBy_concat (directory : String) (earlier : List String) (input : String) :
    takenBy directory (earlier ++ [input]) =
      (outputPath directory input, input) :: takenBy directory earlier := by
  rw [takenBy, List.reverse_append]
  rfl

variable {earlier : List String}

/-- An output that nobody has is not found among what is taken. -/
theorem find?_takenBy_eq_none {output : String}
    (free : output ∉ earlier.map (outputPath directory)) :
    (takenBy directory earlier).find? (·.1 == output) = none := by
  rw [List.find?_eq_none]
  intro entry listed found
  obtain ⟨taker, there, rfl⟩ := List.mem_map.mp listed
  rw [beq_iff_eq] at found
  exact free (List.mem_map.mpr ⟨taker, List.mem_reverse.mp there, found⟩)

/-- An output that somebody has is found with the input that took it. -/
theorem find?_takenBy_eq_some (distinct : (earlier.map (outputPath directory)).Nodup)
    (listed : first ∈ earlier) :
    (takenBy directory earlier).find? (·.1 == outputPath directory first) =
      some (outputPath directory first, first) := by
  have keys : ((takenBy directory earlier).map Prod.fst).Nodup := by
    rw [takenBy, List.map_map, List.map_reverse, List.nodup_reverse]
    exact distinct
  refine (find?_eq_some_of_nodup keys).mpr ⟨?_, rfl⟩
  exact List.mem_map.mpr ⟨first, List.mem_reverse.mpr listed, rfl⟩

/-- **The search passes inputs with different outputs**, and remembers them. -/
theorem outputPathsFrom_append (earlier : List String) {fresh : List String}
    (rest : List String) (distinct : ((earlier ++ fresh).map (outputPath directory)).Nodup) :
    outputPathsFrom directory (takenBy directory earlier) (fresh ++ rest) =
      (outputPathsFrom directory (takenBy directory (earlier ++ fresh)) rest).map
        (fresh.map (outputPath directory) ++ ·) := by
  induction fresh generalizing earlier with
  | nil =>
      rw [List.append_nil, List.nil_append]
      cases outputPathsFrom directory (takenBy directory earlier) rest <;> rfl
  | cons input fresh ih =>
      have moved : earlier ++ input :: fresh = earlier ++ [input] ++ fresh := by simp
      have free : outputPath directory input ∉ earlier.map (outputPath directory) := by
        rw [List.map_append, List.nodup_append] at distinct
        intro taken
        exact distinct.2.2 _ taken _ List.mem_cons_self rfl
      rw [moved] at distinct ⊢
      rw [List.cons_append, outputPathsFrom, find?_takenBy_eq_none free, ← takenBy_concat,
        ih _ distinct]
      cases outputPathsFrom directory (takenBy directory (earlier ++ [input] ++ fresh)) rest <;> rfl

theorem outputPaths_of_nodup (distinct : (inputs.map (outputPath directory)).Nodup) :
    outputPaths directory inputs = .ok (inputs.map (outputPath directory)) := by
  have passes := outputPathsFrom_append [] [] distinct
  rw [List.append_nil] at passes
  refine passes.trans ?_
  rw [outputPathsFrom]
  exact congrArg Except.ok (List.append_nil _)

theorem FirstCollision.outputPaths_eq (collides : FirstCollision directory inputs first second) :
    outputPaths directory inputs =
      .error (.collision first second (outputPath directory second)) := by
  obtain ⟨before, between, after, rfl, distinct, same⟩ := collides
  let earlier := before ++ first :: between
  have taken : (takenBy directory earlier).find? (·.1 == outputPath directory second) =
      some (outputPath directory second, first) := by
    rw [← same]
    exact find?_takenBy_eq_some distinct (List.mem_append_right _ List.mem_cons_self)
  have stops : outputPathsFrom directory (takenBy directory earlier) (second :: after) =
      .error (.collision first second (outputPath directory second)) := by
    rw [outputPathsFrom, taken]
  refine (outputPathsFrom_append [] (second :: after) distinct).trans ?_
  exact congrArg (Except.map _) stops

/-- **The search blames the first collision.** -/
theorem outputPaths_eq_error_iff {failure : Failure} :
    outputPaths directory inputs = .error failure ↔
      ∃ first second, FirstCollision directory inputs first second ∧
        failure = .collision first second (outputPath directory second) := by
  constructor
  · intro fails
    rcases nodup_or_firstCollision directory inputs with distinct | ⟨first, second, collides⟩
    · rw [outputPaths_of_nodup distinct] at fails
      cases fails
    · rw [collides.outputPaths_eq] at fails
      cases fails
      exact ⟨first, second, collides, rfl⟩
  · rintro ⟨first, second, collides, rfl⟩
    exact collides.outputPaths_eq

/-- The search succeeds when the outputs differ, and on nothing else. -/
theorem outputPaths_eq_ok_iff {outputs : List String} :
    outputPaths directory inputs = .ok outputs ↔
      (inputs.map (outputPath directory)).Nodup ∧ outputs = inputs.map (outputPath directory) := by
  constructor
  · intro succeeds
    obtain ⟨rfl, distinct, -⟩ := outputPathsFrom_eq_ok succeeds
    exact ⟨distinct, rfl⟩
  · rintro ⟨distinct, rfl⟩
    exact outputPaths_of_nodup distinct

/-! ## Before anything is read -/

/-- **A build refuses inputs that collide, and no others.**  The outputs of inputs are decided on
exactly when the inputs have different stems, where `package` stands for a stem that is missing.
They are then, in the order of the inputs, the files of the directory that are named after the
stems, and no two of them are one path.  Otherwise the failure is the first collision: it names
the first input whose output is taken and the one in front of it that took it.  A build that is
refused comes to this failure without any operation on files and without a word in the log,
whatever the operations are. -/
theorem collisions_are_refused (directory : String) (inputs : List String) :
    ((∃ outputs, outputPaths directory inputs = .ok outputs) ↔
      (inputs.map outputStem).Nodup) ∧
    (∀ outputs, outputPaths directory inputs = .ok outputs →
      outputs = inputs.map (fun input =>
        Path.join directory (outputStem input ++ ".lapp.json")) ∧
      (outputs.map Path.components).Nodup) ∧
    (∀ failure, outputPaths directory inputs = .error failure ↔
      ∃ first second, FirstCollision directory inputs first second ∧
        failure = .collision first second (outputPath directory second)) ∧
    (∀ first second, FirstCollision directory inputs first second →
      let failure := Failure.collision first second (outputPath directory second)
      let message := "Inputs " ++ first ++ " and " ++ second ++
        " would both be written to " ++ outputPath directory second
      failure.line = message ∧ failure.report = message ∧
      ∀ (m : Type → Type) [Monad m] (files : FileAccess m) (isCompact : Bool),
        buildAll files inputs directory isCompact = pure ⟨.error failure, []⟩) := by
  refine ⟨?_, ?_, fun failure => outputPaths_eq_error_iff, ?_⟩
  · rw [← nodup_outputs_iff directory]
    constructor
    · rintro ⟨outputs, succeeds⟩
      exact (outputPaths_eq_ok_iff.mp succeeds).1
    · intro distinct
      exact ⟨_, outputPaths_of_nodup distinct⟩
  · intro outputs succeeds
    obtain ⟨distinct, rfl⟩ := outputPaths_eq_ok_iff.mp succeeds
    rw [nodup_outputs_iff] at distinct
    exact ⟨rfl, (nodup_components_iff directory inputs).mpr distinct⟩
  · intro first second collides failure message
    refine ⟨rfl, rfl, fun m _ files isCompact => ?_⟩
    rw [buildAll, collides.outputPaths_eq]

/-- An input keeps all but the last part of a name with several dots, and a path that names no file
collides with a file that is called `package`.  The collision behind it is not reported, and the
input that could be built is not. -/
theorem collisions_are_refused_package :
    let inputs := ["a.json", "..", "dumps/app.v2.json", "b/package.tar", "app.v2.yaml"]
    let failure := Failure.collision ".." "b/package.tar" "out/package.lapp.json"
    outputPaths "out" (inputs.take 3) =
        .ok ["out/a.lapp.json", "out/package.lapp.json", "out/app.v2.lapp.json"] ∧
      outputPaths "out" inputs = .error failure ∧
      failure.line =
        "Inputs .. and b/package.tar would both be written to out/package.lapp.json" ∧
      (buildAll FileTree.access inputs "out" false).run bundleTree =
        (⟨.error failure, []⟩, bundleTree) := by
  intro inputs failure
  have distinct : ((inputs.take 3).map outputStem).Nodup := by decide +kernel
  constructor
  · obtain ⟨succeeds, named, -⟩ := collisions_are_refused "out" (inputs.take 3)
    obtain ⟨outputs, decides⟩ := succeeds.mpr distinct
    rw [decides, (named outputs decides).1]
    exact congrArg Except.ok (by decide +kernel)
  · obtain ⟨-, -, blames, refuses⟩ := collisions_are_refused "out" inputs
    have output : outputPath "out" "b/package.tar" = "out/package.lapp.json" := by
      decide +kernel
    have collides : FirstCollision "out" inputs ".." "b/package.tar" :=
      ⟨["a.json"], ["dumps/app.v2.json"], ["app.v2.yaml"], rfl,
        (nodup_outputs_iff _ _).mpr distinct, by decide +kernel⟩
    have fails := (blames _).mpr ⟨_, _, collides, rfl⟩
    obtain ⟨line, -, untouched⟩ := refuses _ _ collides
    rw [output] at fails line untouched
    refine ⟨fails, line.trans (by decide +kernel), ?_⟩
    rw [untouched]
    rfl

end ProgramModel
