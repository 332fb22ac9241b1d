/-
# ProgramModel.Proofs.Interleavings -- builds of one command, in whatever turns they are run

The builds of a command share a file tree.  `Tasks` are routines over one tree, and a list of
turns says whose request is served next (`Tasks.run`).  One after another is one order
among them (`exists_turns_buildEach`), and in no state is there anything to wait for: some
turns bring every build to its end (`exists_turns_done`).

A build goes through three stages (`Job.Stage`): its input is still to be read, and is what
it was at the start; or the input has been read, and all that is left is to make
directories and to write the document; or the document has been written, and is there.
A step of one build brings it to its next stage (`Job.Stage.step`) and changes no file but its
output, so it leaves the others at theirs unless its output is a file of theirs
(`Job.Stage.of_keeps`).

No two outputs are one file, since a command refuses that.  It does not look whether an
output is another build's input.  Where none is, every order of the builds writes what the
inputs at the start were built to (`builds_are_independent`); where one is, the order
decides (`builds_interfere`).
-/
import ProgramModel.Proofs.Outputs
import ProgramModel.Proofs.Routines

namespace ProgramModel

set_option autoImplicit false

/-! ## Turns -/

/-- Routines that share a file tree. -/
structure Tasks (α : Type) where
  tree : FileTree
  routines : List (Routine α)

namespace Tasks

variable {α : Type} {tasks : Tasks α}

/-- The tasks after the next request of the routine at a place.  Where no routine asks anything,
nothing happens. -/
def step (tasks : Tasks α) (turn : Nat) : Tasks α :=
  match tasks.routines[turn]? with
  | some (.ask request next) =>
      let (answer, later) := tasks.tree.serve request
      ⟨later, tasks.routines.set turn (next answer)⟩
  | _ => tasks

/-- The tasks after some turns. -/
def run (tasks : Tasks α) (turns : List Nat) : Tasks α := turns.foldl step tasks

theorem step_of_asks {turn : Nat} {request : FileRequest} {next : request.Answer → Routine α}
    (asks : tasks.routines[turn]? = some (.ask request next)) :
    tasks.step turn = ⟨(tasks.tree.serve request).2,
      tasks.routines.set turn (next (tasks.tree.serve request).1)⟩ := by
  unfold step
  rw [asks]

/-- **All that a turn can do.** -/
theorem step_cases (tasks : Tasks α) (turn : Nat) :
    tasks.step turn = tasks ∨
    ∃ request next, tasks.routines[turn]? = some (.ask request next) ∧
      tasks.step turn = ⟨(tasks.tree.serve request).2,
        tasks.routines.set turn (next (tasks.tree.serve request).1)⟩ := by
  unfold step
  split
  · rename_i request next asks
    exact .inr ⟨request, next, asks, rfl⟩
  · exact .inl rfl

theorem run_append (tasks : Tasks α) (turns more : List Nat) :
    tasks.run (turns ++ more) = (tasks.run turns).run more :=
  List.foldl_append

/-! ## One after another -/

/-- A routine can have all the turns until it is done. -/
theorem exists_turns_runOn {routine : Routine α} {place : Nat}
    (there : tasks.routines[place]? = some routine) :
    ∃ turns, tasks.run turns = ⟨(routine.runOn tasks.tree).2,
      tasks.routines.set place (.done (routine.runOn tasks.tree).1)⟩ := by
  induction routine generalizing tasks with
  | done result =>
      obtain ⟨inside, same⟩ := List.getElem?_eq_some_iff.mp there
      refine ⟨[], ?_⟩
      show tasks = ⟨tasks.tree, tasks.routines.set place (.done result)⟩
      rw [← same, List.set_getElem_self]
  | ask request next ih =>
      obtain ⟨inside, -⟩ := List.getElem?_eq_some_iff.mp there
      have first := step_of_asks there
      have goesOn : (tasks.step place).routines[place]? =
          some (next (tasks.tree.serve request).1) := by
        rw [first]
        exact List.getElem?_set_self inside
      obtain ⟨turns, finishes⟩ := ih _ goesOn
      refine ⟨place :: turns, ?_⟩
      show (tasks.step place).run turns = _
      rw [finishes, first]
      show (⟨_, (tasks.routines.set place _).set place _⟩ : Tasks α) = _
      rw [List.set_set]
      rfl

/-- What routines come to one after another, and the tree after them. -/
def inOrder : List (Routine α) → FileTree → List α × FileTree
  | [], tree => ([], tree)
  | routine :: rest, tree =>
      let (result, later) := routine.runOn tree
      let (results, final) := inOrder rest later
      (result :: results, final)

/-- **Turns can be taken in the order of the routines**, from wherever the routines have come to. -/
theorem exists_turns_inOrder (finished : List α) (routines : List (Routine α)) (tree : FileTree) :
    ∃ turns, run ⟨tree, finished.map .done ++ routines⟩ turns =
      ⟨(inOrder routines tree).2, (finished ++ (inOrder routines tree).1).map .done⟩ := by
  induction routines generalizing finished tree with
  | nil => exact ⟨[], by simp [run, inOrder]⟩
  | cons routine rest ih =>
      let tasks : Tasks α := ⟨tree, finished.map .done ++ routine :: rest⟩
      have there : tasks.routines[finished.length]? = some routine := by simp [tasks]
      obtain ⟨turns, finishes⟩ := exists_turns_runOn there
      obtain ⟨more, others⟩ := ih (finished ++ [(routine.runOn tree).1]) (routine.runOn tree).2
      refine ⟨turns ++ more, ?_⟩
      have moved : tasks.routines.set finished.length (.done (routine.runOn tree).1) =
          (finished ++ [(routine.runOn tree).1]).map .done ++ rest := by
        simp [tasks]
      rw [run_append, finishes, moved, others]
      simp [inOrder]

/-- **From every state some turns bring all routines to their ends.** -/
theorem exists_turns_done (tasks : Tasks α) :
    ∃ turns, ∀ routine ∈ (tasks.run turns).routines, ∃ result, routine = .done result := by
  obtain ⟨turns, finishes⟩ := exists_turns_inOrder [] tasks.routines tasks.tree
  refine ⟨turns, fun routine there => ?_⟩
  rw [List.map_nil, List.nil_append] at finishes
  rw [finishes] at there
  obtain ⟨result, -, same⟩ := List.mem_map.mp there
  exact ⟨result, same.symm⟩

/-! ## Builds -/

/-- The builds of inputs to outputs, before the first of them has begun. -/
def ofBuilds (tree : FileTree) (layout : Json.Layout) (builds : List (String × String)) :
    Tasks (Attempt BuildReport) :=
  ⟨tree, builds.map fun build => buildOne Routine.files layout build.1 build.2⟩

theorem inOrder_buildEach (layout : Json.Layout) (builds : List (String × String))
    (tree : FileTree) :
    inOrder (builds.map fun build => buildOne Routine.files layout build.1 build.2) tree =
      (buildEach FileTree.access layout builds).run tree := by
  induction builds generalizing tree with
  | nil => rfl
  | cons build rest ih =>
      have first := Routine.performs_buildOne layout build.1 build.2 tree
      rw [List.map_cons, inOrder, first]
      simp only [ih]
      rfl

/-- **Building one input after another is one order of their turns.** -/
theorem exists_turns_buildEach (tree : FileTree) (layout : Json.Layout)
    (builds : List (String × String)) :
    let outcome := (buildEach FileTree.access layout builds).run tree
    ∃ turns, (ofBuilds tree layout builds).run turns = ⟨outcome.2, outcome.1.map .done⟩ := by
  have sequential := exists_turns_inOrder [] (ofBuilds tree layout builds).routines tree
  unfold ofBuilds at sequential ⊢
  rw [inOrder_buildEach] at sequential
  exact sequential

end Tasks

/-! ## Routines that prepare -/

namespace Routine

variable {α β : Type}

/-- The routine makes and looks for directories, and asks for nothing else. -/
inductive Prepares : Routine α → Prop
  | done (result : α) : Prepares (.done result)
  | looks (path : String) (next : Bool → Routine α) (each : ∀ answer, Prepares (next answer)) :
      Prepares (.ask (.isDirectory path) next)
  | makes (path : String) (next : Except IoError Unit → Routine α)
      (each : ∀ answer, Prepares (next answer)) : Prepares (.ask (.makeDirectory path) next)

theorem Prepares.bind {routine : Routine α} {further : α → Routine β} (first : routine.Prepares)
    (second : ∀ result, (further result).Prepares) : (routine >>= further).Prepares := by
  induction first with
  | done result => exact second result
  | looks path next _ ih => exact .looks path _ ih
  | makes path next _ ih => exact .makes path _ ih

theorem prepares_isDirectory (path : String) : (files.isDirectory path).Prepares :=
  .looks path _ .done

theorem prepares_makeDirectory (path : String) : (files.makeDirectory path).Prepares :=
  .makes path _ .done

theorem prepares_settle (directory : String) (made : Except IoError Unit) :
    (files.settle directory made).Prepares := by
  cases made with
  | ok => exact .done _
  | error error =>
      refine (prepares_isDirectory directory).bind ?_
      intro present
      cases present <;> exact .done _

theorem prepares_makeDirectories (directories : List String) :
    (files.makeDirectories directories).Prepares := by
  induction directories with
  | nil => exact .done _
  | cons directory outer ih =>
      refine (prepares_makeDirectory directory).bind ?_
      intro made
      split
      · refine ih.bind ?_
        intro around
        cases around with
        | error error => exact .done _
        | ok => exact (prepares_makeDirectory directory).bind (prepares_settle directory)
      · exact prepares_settle directory made

end Routine

/-! ## The stages of a build -/

/-- The build of an input to a package, with what there is to report of the input. -/
structure Job where
  layout : Json.Layout
  directory : String
  input : String
  package : Package
  log : List Event

namespace Job

/-- The build of an input on a tree; without a package if that fails. -/
def ofInput (tree : FileTree) (layout : Json.Layout) (directory input : String) : Job :=
  let attempt := packageOfRead input (tree.read input)
  { layout, directory, input, package := attempt.value.toOption.getD {}, log := attempt.log }

def output (job : Job) : String := outputPath job.directory job.input

/-- What is to be written. -/
def content (job : Job) : List UInt8 := Text.encode (job.package.document.chars job.layout)

/-- What comes of a build that writes its document. -/
def success (job : Job) : Attempt BuildReport :=
  ⟨.ok (.ofPackage job.input job.output job.package), job.log ++ [.documentWritten job.output]⟩

/-- What comes of one that cannot write it. -/
def failure (job : Job) (cause : IoError) : Attempt BuildReport :=
  ⟨.error (.writeDocument job.output cause), job.log ++ [.documentWritten job.output]⟩

/-- What comes of an attempt to write. -/
def conclusion (job : Job) : Except IoError Unit → Attempt BuildReport
  | .ok () => job.success
  | .error cause => job.failure cause

def routine (job : Job) : Routine (Attempt BuildReport) :=
  buildOne Routine.files job.layout job.input job.output

/-- On the tree, the input is read and built to the package of the job. -/
def Reads (job : Job) (tree : FileTree) : Prop :=
  packageOfRead job.input (tree.read job.input) = ⟨.ok job.package, job.log⟩

theorem ofInput_eq {tree : FileTree} {input : String} {package : Package} {log : List Event}
    (layout : Json.Layout) (directory : String)
    (builds : packageOfRead input (tree.read input) = ⟨.ok package, log⟩) :
    ofInput tree layout directory input = ⟨layout, directory, input, package, log⟩ := by
  unfold ofInput
  rw [builds]
  rfl

/-- What can be built can be read. -/
theorem Reads.readable {job : Job} {tree : FileTree} (reads : job.Reads tree) :
    ∃ content, tree.read job.input = .ok content := by
  unfold Reads at reads
  cases read : tree.read job.input with
  | ok content => exact ⟨content, rfl⟩
  | error cause =>
      rw [read] at reads
      cases reads

/-- All that the routine still does is to make directories and to write the document. -/
inductive Storing (job : Job) : Routine (Attempt BuildReport) → Prop
  | failed (cause : IoError) : Storing job (.done (job.failure cause))
  | looks (path : String) (next : Bool → Routine (Attempt BuildReport))
      (each : ∀ answer, Storing job (next answer)) : Storing job (.ask (.isDirectory path) next)
  | makes (path : String) (next : Except IoError Unit → Routine (Attempt BuildReport))
      (each : ∀ answer, Storing job (next answer)) : Storing job (.ask (.makeDirectory path) next)
  | writes (next : Except IoError Unit → Routine (Attempt BuildReport))
      (concludes : ∀ answer, next answer = .done (job.conclusion answer)) :
      Storing job (.ask (.write job.output job.content) next)

variable {job : Job}

theorem storing_bind {α : Type} {routine : Routine α} {further : α → Routine (Attempt BuildReport)}
    (prepares : routine.Prepares) (stores : ∀ result, job.Storing (further result)) :
    job.Storing (routine >>= further) := by
  induction prepares with
  | done result => exact stores result
  | looks path next _ ih => exact .looks path _ ih
  | makes path next _ ih => exact .makes path _ ih

/-- **A build reads its input and then stores what it is built to.** -/
theorem routine_eq (job : Job) : ∃ next, job.routine = .ask (.read job.input) next ∧
    ∀ content, packageOfRead job.input content = ⟨.ok job.package, job.log⟩ →
      job.Storing (next content) := by
  refine ⟨_, rfl, ?_⟩
  intro content builds
  show job.Storing (Routine.andThen (.done content) _)
  simp only [Routine.andThen, builds]
  refine storing_bind (Routine.prepares_makeDirectories _) ?_
  intro made
  cases made with
  | error cause => exact .failed cause
  | ok =>
      refine .writes _ ?_
      intro answer
      cases answer <;> rfl

/-- How far the routine of a build has come on a tree, if its input was to be read on the tree at
the start. -/
inductive Stage (job : Job) (start tree : FileTree) (routine : Routine (Attempt BuildReport)) : Prop
  | waiting (whole : routine = job.routine) (unread : tree.read job.input = start.read job.input)
  | storing (stores : job.Storing routine)
  | stored (ended : routine = .done job.success) (holds : tree.read job.output = .ok job.content)

variable {start tree later : FileTree}

/-- **A request of a build brings it on**, and changes no file but its output. -/
theorem Stage.step {request : FileRequest} {next : request.Answer → Routine (Attempt BuildReport)}
    (reads : job.Reads start) (stage : job.Stage start tree (.ask request next)) :
    (tree.serve request).2.Keeps tree [tree.destination job.output] ∧
      job.Stage start (tree.serve request).2 (next (tree.serve request).1) := by
  cases stage with
  | waiting whole unread =>
      obtain ⟨further, begins, stores⟩ := job.routine_eq
      rw [begins] at whole
      cases whole
      refine ⟨FileTree.Keeps.refl tree _, .storing (stores _ ?_)⟩
      show packageOfRead job.input (tree.read job.input) = _
      rw [unread]
      exact reads
  | storing stores =>
      cases stores with
      | looks path next each => exact ⟨FileTree.Keeps.refl tree _, .storing (each _)⟩
      | makes path next each =>
          have keeps := FileTree.gentle_makeDirectory path tree
          exact ⟨keeps.mono (List.nil_subset _), .storing (each _)⟩
      | writes next concludes =>
          have writes := FileTree.run_write tree job.output job.content
          cases written : tree.write job.output job.content with
          | error cause =>
              rw [written] at writes
              have serves : tree.serve (.write job.output job.content) = (.error cause, tree) :=
                writes
              rw [serves, concludes]
              exact ⟨FileTree.Keeps.refl tree _, .storing (.failed cause)⟩
          | ok later =>
              rw [written] at writes
              have serves : tree.serve (.write job.output job.content) = (.ok (), later) := writes
              obtain ⟨holds, keeps⟩ := FileTree.read_of_write_output written
              rw [serves, concludes]
              exact ⟨keeps, .stored rfl holds⟩
  | stored ended => cases ended

/-- A build does not notice that other files have changed. -/
theorem Stage.of_keeps {routine : Routine (Attempt BuildReport)} {place : Location}
    (reads : job.Reads start) (stage : job.Stage start tree routine)
    (keeps : later.Keeps tree [place]) (input : tree.destination job.input ≠ place)
    (output : tree.destination job.output ≠ place) : job.Stage start later routine := by
  cases stage with
  | waiting whole unread =>
      obtain ⟨content, reads⟩ := reads.readable
      refine .waiting whole ?_
      rw [reads] at unread ⊢
      exact keeps.read unread (by simpa using input)
  | storing stores => exact .storing stores
  | stored ended holds => exact .stored ended (keeps.read holds (by simpa using output))

/-- A build that is done has written its document, which is there, or could not. -/
theorem Stage.of_done {attempt : Attempt BuildReport}
    (stage : job.Stage start tree (.done attempt)) :
    (attempt = job.success ∧ tree.read job.output = .ok job.content) ∨
      ∃ cause, attempt = job.failure cause := by
  cases stage with
  | waiting whole =>
      obtain ⟨next, begins, -⟩ := job.routine_eq
      rw [begins] at whole
      cases whole
  | storing stores =>
      cases stores with
      | failed cause => exact .inr ⟨cause, rfl⟩
  | stored ended holds =>
      cases ended
      exact .inl ⟨rfl, holds⟩

end Job

/-! ## All builds -/

/-- The output of one job is neither the input nor the output of another. -/
def Job.Apart (start : FileTree) (jobs : List Job) : Prop :=
  ∀ (place other : Nat) (job another : Job), jobs[place]? = some job → jobs[other]? = some another →
    place ≠ other → start.destination job.input ≠ start.destination another.output ∧
      start.destination job.output ≠ start.destination another.output

namespace Tasks

/-- Each routine is at a stage of its job, and nothing but outputs has been written. -/
structure Sound (start : FileTree) (jobs : List Job) (tasks : Tasks (Attempt BuildReport)) :
    Prop where
  keeps : tasks.tree.Keeps start (jobs.map fun job => start.destination job.output)
  length : tasks.routines.length = jobs.length
  stages : ∀ (place : Nat) (job : Job) (routine : Routine (Attempt BuildReport)),
    jobs[place]? = some job → tasks.routines[place]? = some routine →
    job.Stage start tasks.tree routine

variable {start : FileTree} {jobs : List Job} {tasks : Tasks (Attempt BuildReport)}

/-- **Whichever build has its turn, all are at a stage of theirs after it.** -/
theorem Sound.step (reads : ∀ job ∈ jobs, job.Reads start) (apart : Job.Apart start jobs)
    (sound : tasks.Sound start jobs) (turn : Nat) : (tasks.step turn).Sound start jobs := by
  rcases tasks.step_cases turn with idle | ⟨request, next, asks, serves⟩
  · rw [idle]
    exact sound
  rw [serves]
  obtain ⟨inside, -⟩ := List.getElem?_eq_some_iff.mp asks
  obtain ⟨job, there⟩ : ∃ job, jobs[turn]? = some job := by
    rw [sound.length] at inside
    exact ⟨_, List.getElem?_eq_getElem inside⟩
  have listed : job ∈ jobs := List.mem_of_getElem? there
  obtain ⟨changes, further⟩ :=
    (sound.stages turn job _ there asks).step (reads job listed)
  rw [sound.keeps.destination] at changes
  refine ⟨?_, ?_, ?_⟩
  · refine (changes.trans sound.keeps).mono fun place written => ?_
    rcases List.mem_append.mp written with earlier | own
    · exact earlier
    · obtain rfl := List.mem_singleton.mp own
      exact List.mem_map.mpr ⟨job, listed, rfl⟩
  · rw [List.length_set]
    exact sound.length
  · intro place another routine also at_place
    by_cases same : place = turn
    · subst same
      obtain rfl : job = another := Option.some.inj (there.symm.trans also)
      rw [List.getElem?_set_self inside] at at_place
      obtain rfl := Option.some.inj at_place
      exact further
    · rw [List.getElem?_set_ne (Ne.symm same)] at at_place
      obtain ⟨input, output⟩ := apart place turn another job also there same
      refine (sound.stages place another routine also at_place).of_keeps
        (reads another (List.mem_of_getElem? also)) changes ?_ ?_
      · rw [sound.keeps.destination]
        exact input
      · rw [sound.keeps.destination]
        exact output

/-- **So they are after any turns.** -/
theorem Sound.run (reads : ∀ job ∈ jobs, job.Reads start) (apart : Job.Apart start jobs)
    (sound : tasks.Sound start jobs) (turns : List Nat) : (tasks.run turns).Sound start jobs := by
  refine List.foldlRecOn (motive := fun tasks : Tasks _ => tasks.Sound start jobs) turns
    Tasks.step sound ?_
  intro tasks sound turn _
  exact sound.step reads apart turn

/-- Before the first turn all are to read their inputs. -/
theorem sound_ofBuilds (start : FileTree) (layout : Json.Layout) (directory : String)
    (inputs : List String) :
    (ofBuilds start layout (inputs.map fun input => (input, outputPath directory input))).Sound
      start (inputs.map (Job.ofInput start layout directory)) where
  keeps := FileTree.Keeps.refl start _
  length := by simp [ofBuilds]
  stages place job routine there at_place := by
    obtain ⟨input, listed, rfl⟩ := by simpa using there
    have same : buildOne Routine.files layout input (outputPath directory input) = routine := by
      simpa [ofBuilds, listed] using at_place
    exact .waiting same.symm rfl

end Tasks

/-- Jobs with different outputs are apart when no output is the input of another one. -/
theorem Job.apart_ofInput {start : FileTree} {directory : String} {inputs : List String}
    (layout : Json.Layout) (distinct : (inputs.map (outputPath directory)).Nodup)
    (apart : ∀ input ∈ inputs, ∀ other ∈ inputs, input ≠ other →
      start.destination input ≠ start.destination (outputPath directory other)) :
    Job.Apart start (inputs.map (Job.ofInput start layout directory)) := by
  intro place other job another there also differ
  rw [List.getElem?_map, Option.map_eq_some_iff] at there also
  obtain ⟨input, listed, rfl⟩ := there
  obtain ⟨second, listed', rfl⟩ := also
  have outputs : outputPath directory input ≠ outputPath directory second := by
    intro same
    have first : (inputs.map (outputPath directory))[place]? =
        some (outputPath directory input) := by
      rw [List.getElem?_map, listed]
      rfl
    have last : (inputs.map (outputPath directory))[other]? =
        some (outputPath directory input) := by
      rw [List.getElem?_map, listed', same]
      rfl
    obtain ⟨inside, -⟩ := List.getElem?_eq_some_iff.mp first
    exact differ ((List.getElem?_inj inside distinct).mp (first.trans last.symm))
  have inputs : input ≠ second := by
    rintro rfl
    exact outputs rfl
  refine ⟨?_, fun same => outputs (FileTree.destination_outputPath same)⟩
  exact apart input (List.mem_of_getElem? listed) second (List.mem_of_getElem? listed') inputs

/-- **Builds do not notice each other, unless one writes what another is to read.**  Of inputs that
are all read and built at the start, with outputs that are accepted and none of which is the file
of another input, whatever turns the builds take: a build that is done has written to its output
what its input at the start is built to, and this is what stands there; or it could not write.  No
file but the outputs has changed.  And further turns bring all builds to their ends. -/
theorem builds_are_independent {start : FileTree} {directory : String}
    {inputs outputs : List String} (layout : Json.Layout)
    (accepted : outputPaths directory inputs = .ok outputs)
    (build : ∀ input ∈ inputs, ∃ package log,
      packageOfRead input (start.read input) = ⟨.ok package, log⟩)
    (apart : ∀ input ∈ inputs, ∀ other ∈ inputs, input ≠ other →
      start.destination input ≠ start.destination (outputPath directory other))
    (turns : List Nat) :
    let tasks := (Tasks.ofBuilds start layout (inputs.zip outputs)).run turns
    (∀ (place : Nat) (input : String) (attempt : Attempt BuildReport),
      inputs[place]? = some input → tasks.routines[place]? = some (.done attempt) →
      ∃ package log,
      packageOfRead input (start.read input) = ⟨.ok package, log⟩ ∧
      let output := outputPath directory input
      (attempt = ⟨.ok (.ofPackage input output package), log ++ [.documentWritten output]⟩ ∧
        tasks.tree.read output = .ok (Text.encode (package.document.chars layout))) ∨
      ∃ cause, attempt = ⟨.error (.writeDocument output cause), log ++ [.documentWritten output]⟩) ∧
    tasks.tree.Keeps start (outputs.map start.destination) ∧
    ∃ more, ∀ routine ∈ (tasks.run more).routines, ∃ attempt, routine = .done attempt := by
  intro tasks
  obtain ⟨rfl, distinct, -⟩ := outputPathsFrom_eq_ok accepted
  let jobs := inputs.map (Job.ofInput start layout directory)
  have reads : ∀ job ∈ jobs, job.Reads start := by
    intro job there
    obtain ⟨input, listed, rfl⟩ := List.mem_map.mp there
    obtain ⟨package, log, builds⟩ := build input listed
    rw [Job.ofInput_eq layout directory builds]
    exact builds
  have sound : tasks.Sound start jobs := by
    have before := Tasks.sound_ofBuilds start layout directory inputs
    rw [List.map_prod_left_eq_zip] at before
    exact before.run reads (Job.apart_ofInput layout distinct apart) turns
  refine ⟨?_, ?_, tasks.exists_turns_done⟩
  · intro place input attempt listed ended
    have there : jobs[place]? = some (Job.ofInput start layout directory input) := by
      rw [List.getElem?_map, listed]
      rfl
    obtain ⟨package, log, builds⟩ := build input (List.mem_of_getElem? listed)
    have stage := sound.stages place _ _ there ended
    rw [Job.ofInput_eq layout directory builds] at stage
    exact ⟨package, log, builds, stage.of_done⟩
  · have keeps := sound.keeps
    rw [List.map_map] at keeps ⊢
    exact keeps

/-- The text of a bundle without analyses. -/
def emptyBundle : List UInt8 := Text.encode (Json.chars .compact (.object []))

/-- The text of a bundle with one artifact that has no classes. -/
def artifactBundle : List UInt8 :=
  Text.encode <| Json.chars .compact <| .object [
    ("analyses", .array [.object [
      ("artifact", .object [("group", .text "g"), ("name", .text "a"), ("version", .text "1")]),
      ("hierarchy", .object []),
      ("callGraph", .object [])]])]

/-- A tree with the empty bundle in `a.json` and the other one in the file of another name. -/
def twoBundles (other : String) : FileTree where
  entries := SortedMap.ofList [(["a.json"], .file emptyBundle), ([other], .file artifactBundle)]

/-- The document that an input is built to on a tree, if it is built at all. -/
def documentOf (tree : FileTree) (input : String) : Option (List UInt8) :=
  (packageOfRead input (tree.read input)).value.toOption.map fun package =>
    Text.encode (package.document.chars .compact)

theorem documentOf_eq_some {tree : FileTree} {input : String} {content : List UInt8}
    (builds : documentOf tree input = some content) : ∃ package log,
      packageOfRead input (tree.read input) = ⟨.ok package, log⟩ ∧
      Text.encode (package.document.chars .compact) = content := by
  unfold documentOf at builds
  cases attempt : packageOfRead input (tree.read input) with
  | mk value log =>
  rw [attempt] at builds
  cases value with
  | error failure => cases builds
  | ok package => exact ⟨package, log, rfl, Option.some.inj builds⟩

theorem ok_of_toOption {ε α : Type} {result : Except ε α} {value : α}
    (same : result.toOption = some value) : result = .ok value := by
  cases result with
  | error error => cases same
  | ok other => exact congrArg Except.ok (Option.some.inj same)

/-- The report of the build at a place, if it has come to one. -/
def Tasks.reportOf? (tasks : Tasks (Attempt BuildReport)) (place : Nat) : Option BuildReport :=
  match tasks.routines[place]? with
  | some (.done attempt) => attempt.value.toOption
  | _ => none

theorem Tasks.reportOf?_eq_some {tasks : Tasks (Attempt BuildReport)} {place : Nat}
    {report : BuildReport} (reports : tasks.reportOf? place = some report) :
    ∃ attempt, tasks.routines[place]? = some (.done attempt) ∧ attempt.value = .ok report := by
  unfold reportOf? at reports
  split at reports
  · rename_i attempt there
    exact ⟨attempt, there, ok_of_toOption reports⟩
  · cases reports

/-- Two builds that take turns: the second one is done, and its document stands in its output. -/
theorem builds_are_independent_pair :
    let start := twoBundles "b.json"
    let tasks := (Tasks.ofBuilds start .compact
      (["a.json", "b.json"].zip ["./a.lapp.json", "./b.lapp.json"])).run [1, 0, 1, 0, 1, 0, 1]
    outputPaths "." ["a.json", "b.json"] = .ok ["./a.lapp.json", "./b.lapp.json"] ∧
      tasks.reportOf? 1 = some ⟨"b.json", "./b.lapp.json", 1, 0, 0, 0⟩ ∧
      ∃ content, documentOf start "b.json" = some content ∧
        tasks.tree.read "./b.lapp.json" = .ok content := by
  intro start tasks
  have accepted : outputPaths "." ["a.json", "b.json"] =
      .ok ["./a.lapp.json", "./b.lapp.json"] :=
    ok_of_toOption (by decide +kernel)
  have reports : tasks.reportOf? 1 = some ⟨"b.json", "./b.lapp.json", 1, 0, 0, 0⟩ := by
    decide +kernel
  have builds : ∀ input ∈ ["a.json", "b.json"], (documentOf start input).isSome = true := by
    decide +kernel
  have apart : ∀ input ∈ ["a.json", "b.json"], ∀ other ∈ ["a.json", "b.json"], input ≠ other →
      start.destination input ≠ start.destination (outputPath "." other) := by
    decide +kernel
  obtain ⟨stored, -⟩ := builds_are_independent .compact accepted
    (fun input listed => by
      obtain ⟨content, document⟩ := Option.isSome_iff_exists.mp (builds input listed)
      obtain ⟨package, log, built, -⟩ := documentOf_eq_some document
      exact ⟨package, log, built⟩) apart [1, 0, 1, 0, 1, 0, 1]
  obtain ⟨attempt, ended, value⟩ := Tasks.reportOf?_eq_some reports
  obtain ⟨package, log, built, ⟨-, holds⟩ | ⟨cause, fails⟩⟩ := stored 1 "b.json" attempt rfl ended
  · refine ⟨accepted, reports, _, ?_, holds⟩
    unfold documentOf
    rw [built]
    rfl
  · rw [fails] at value
    cases value

/-- **A build may read what another one writes.**  Both inputs are built at the start, and the
outputs are accepted.  But the output of the first build is the second input, so when it is
written before the second input is read, the second output gets the document of the first input;
in the other order it gets that of its own. -/
theorem builds_interfere :
    let start := twoBundles "a.lapp.json"
    let outputs := ["./a.lapp.json", "./a.lapp.lapp.json"]
    let tasks := Tasks.ofBuilds start .compact (["a.json", "a.lapp.json"].zip outputs)
    outputPaths "." ["a.json", "a.lapp.json"] = .ok outputs ∧
      ∃ first second, documentOf start "a.json" = some first ∧
        documentOf start "a.lapp.json" = some second ∧ first ≠ second ∧
        (tasks.run [1, 1, 1, 1, 0, 0, 0, 0]).tree.read "./a.lapp.lapp.json" = .ok second ∧
        (tasks.run [0, 0, 0, 0, 1, 1, 1, 1]).tree.read "./a.lapp.lapp.json" = .ok first ∧
        (tasks.run [0, 0, 0, 0, 1, 1, 1, 1]).reportOf? 1 =
          some ⟨"a.lapp.json", "./a.lapp.lapp.json", 0, 0, 0, 0⟩ := by
  intro start outputs tasks
  -- One evaluation for all, since it shares the documents and the runs.
  obtain ⟨first, second, differ, own, other, reports⟩ :
      (documentOf start "a.json").isSome = true ∧ (documentOf start "a.lapp.json").isSome = true ∧
      documentOf start "a.json" ≠ documentOf start "a.lapp.json" ∧
      ((tasks.run [1, 1, 1, 1, 0, 0, 0, 0]).tree.read "./a.lapp.lapp.json").toOption =
        documentOf start "a.lapp.json" ∧
      ((tasks.run [0, 0, 0, 0, 1, 1, 1, 1]).tree.read "./a.lapp.lapp.json").toOption =
        documentOf start "a.json" ∧
      (tasks.run [0, 0, 0, 0, 1, 1, 1, 1]).reportOf? 1 =
        some ⟨"a.lapp.json", "./a.lapp.lapp.json", 0, 0, 0, 0⟩ := by
    decide +kernel
  obtain ⟨one, isFirst⟩ := Option.isSome_iff_exists.mp first
  obtain ⟨two, isSecond⟩ := Option.isSome_iff_exists.mp second
  rw [isFirst, isSecond] at differ
  rw [isSecond] at own
  rw [isFirst] at other
  have accepted : outputPaths "." ["a.json", "a.lapp.json"] = .ok outputs :=
    ok_of_toOption (by decide +kernel)
  exact ⟨accepted, one, two, isFirst, isSecond, fun same => differ (congrArg some same),
    ok_of_toOption own, ok_of_toOption other, reports⟩

end ProgramModel
