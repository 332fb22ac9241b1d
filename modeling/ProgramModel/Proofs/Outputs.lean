/-
# ProgramModel.Proofs.Outputs -- what a build writes is what a summary reads

A build writes one document for each input, and no two of them to one place: different
outputs lead to different places (`destination_outputPath`), since they are names without
a slash in one directory.  So a document that was written is still there when the build is
over, whatever was written after it (`buildEach_stores`).  Until then directories are all
that is made beside the documents, and making them keeps everything (`Gentle`).

A document is read back as it was written and has as much as its package.  Hence a summary of
a document counts what the build reported of it, and nothing that is counted is lost on
the way (`document_loses_nothing`).
-/
import ProgramModel.Command.Run
import ProgramModel.Proofs.Builds
import ProgramModel.Proofs.Bundles
import ProgramModel.Proofs.Counts
import ProgramModel.Proofs.Files

namespace ProgramModel

set_option autoImplicit false

/-! ## Where outputs lead -/

theorem not_mem_outputName (input : String) : '/' ∉ (outputName input).toList := by
  unfold outputName
  rw [String.toList_append, List.mem_append, not_or]
  refine ⟨?_, by decide⟩
  cases named : Path.stem? input with
  | none => decide
  | some stem => exact Path.not_mem_of_stem? named

/-- The name of an output is none of the short ones that have a meaning of their own. -/
theorem outputName_ne (input : String) {name : String} (short : name.length < 10) :
    outputName input ≠ name := by
  intro same
  have long : 10 ≤ (outputName input).length := by
    have ending : ".lapp.json".length = 10 := by decide
    rw [outputName, String.length_append, ending]
    omega
  rw [same] at long
  omega

namespace FileTree

/-- **Different outputs lead to different places.** -/
theorem destination_outputPath {tree : FileTree} {directory one other : String}
    (same : tree.destination (outputPath directory one) =
      tree.destination (outputPath directory other)) :
    outputPath directory one = outputPath directory other := by
  obtain ⟨outer, leads⟩ := tree.destination_join directory
  have ends (input : String) :
      tree.destination (outputPath directory input) = outer ++ [outputName input] :=
    leads (outputName input) (not_mem_outputName input) (outputName_ne input (by decide))
      (outputName_ne input (by decide)) (outputName_ne input (by decide))
  rw [ends one, ends other] at same
  have names : outputName one = outputName other := by simpa using same
  unfold outputPath
  rw [names]

/-- An output that is not among others leads to none of their places. -/
theorem not_mem_destinations {tree : FileTree} {directory input : String} {others : List String}
    (fresh : outputPath directory input ∉ others.map (outputPath directory)) :
    tree.destination (outputPath directory input) ∉
      others.map fun other => tree.destination (outputPath directory other) := by
  intro again
  obtain ⟨other, listed, leads⟩ := List.mem_map.mp again
  have collides := destination_outputPath leads
  exact fresh (List.mem_map.mpr ⟨other, listed, collides⟩)

/-- An output that was written is read as it was written, and nothing else has changed. -/
theorem read_of_write_output {tree later : FileTree} {directory input : String}
    {content : List UInt8} (writes : tree.write (outputPath directory input) content = .ok later) :
    later.read (outputPath directory input) = .ok content ∧
      later.Keeps tree [tree.destination (outputPath directory input)] := by
  obtain ⟨outer, parts⟩ := Path.parts_join directory
  have ends := parts (outputName input) (not_mem_outputName input)
  have some_ : outputName input ≠ "" := outputName_ne input (by decide)
  exact read_of_write writes ends some_

end FileTree

/-- The outputs that a build decides on are those of its inputs, and they differ. -/
theorem outputPathsFrom_eq_ok {directory : String} {taken : List (String × String)}
    {inputs outputs : List String}
    (decides : outputPathsFrom directory taken inputs = .ok outputs) :
    outputs = inputs.map (outputPath directory) ∧ outputs.Nodup ∧
      ∀ output ∈ outputs, ∀ entry ∈ taken, entry.1 ≠ output := by
  induction inputs generalizing taken outputs with
  | nil =>
      cases decides
      simp
  | cons input rest ih =>
      rw [outputPathsFrom] at decides
      split at decides
      · cases decides
      · rename_i free
        have unused : ∀ entry ∈ taken, entry.1 ≠ outputPath directory input := by
          simpa using List.find?_eq_none.mp free
        cases others : outputPathsFrom directory ((outputPath directory input, input) :: taken) rest
          with
        | error failure =>
            rw [others] at decides
            cases decides
        | ok further =>
            rw [others] at decides
            cases decides
            obtain ⟨same, distinct, apart⟩ := ih others
            have fresh : outputPath directory input ∉ further := by
              intro again
              exact apart _ again _ List.mem_cons_self rfl
            refine ⟨by rw [same, List.map_cons], List.nodup_cons.mpr ⟨fresh, distinct⟩, ?_⟩
            intro output there entry old
            rcases List.mem_cons.mp there with rfl | later
            · exact unused entry old
            · exact apart output later entry (List.mem_cons_of_mem _ old)

/-! ## What making directories does -/

namespace FileTree

variable {α β : Type} {tree later : FileTree}

/-- An action goes on from where the one before it has come to. -/
theorem run_bind_of_run {first : StateM FileTree α} {next : α → StateM FileTree β} {value : α}
    (goes : first.run tree = (value, later)) :
    (first >>= next).run tree = (next value).run later := by
  rw [StateT.run_bind, goes]
  rfl

/-- Whatever tree an action is run on, it keeps everything. -/
def Gentle (action : StateM FileTree α) : Prop :=
  ∀ tree : FileTree, (action.run tree).2.Keeps tree []

theorem gentle_pure (value : α) : Gentle (pure value) := by
  intro tree
  exact Keeps.refl tree []

theorem Gentle.bind {first : StateM FileTree α} {next : α → StateM FileTree β}
    (before : Gentle first) (after : ∀ value, Gentle (next value)) : Gentle (first >>= next) := by
  intro tree
  have goes := (after (first.run tree).1 (first.run tree).2).trans (before tree)
  rw [StateT.run_bind]
  exact goes

theorem gentle_isDirectory (path : String) : Gentle (access.isDirectory path) := by
  intro tree
  exact Keeps.refl tree []

theorem gentle_makeDirectory (path : String) : Gentle (access.makeDirectory path) := by
  intro tree
  show ((become (tree.makeDirectory path)).run tree).2.Keeps tree []
  cases made : tree.makeDirectory path with
  | error error => exact Keeps.refl tree []
  | ok later => exact keeps_makeDirectory made

theorem gentle_settle (directory : String) (made : Except IoError Unit) :
    Gentle (access.settle directory made) := by
  cases made with
  | ok => exact gentle_pure _
  | error error =>
      refine (gentle_isDirectory directory).bind ?_
      intro present
      cases present <;> exact gentle_pure _

/-- Making directories keeps everything, whether or not it succeeds. -/
theorem gentle_makeDirectories (directories : List String) :
    Gentle (access.makeDirectories directories) := by
  induction directories with
  | nil => exact gentle_pure _
  | cons directory outer ih =>
      refine (gentle_makeDirectory directory).bind ?_
      intro made
      split
      · -- The directory around it is missing, so that one is made before another attempt.
        refine ih.bind ?_
        intro around
        cases around with
        | error error => exact gentle_pure _
        | ok =>
            refine (gentle_makeDirectory directory).bind ?_
            intro again
            exact gentle_settle directory again
      · exact gentle_settle directory made

theorem run_write (tree : FileTree) (path : String) (content : List UInt8) :
    (access.write path content).run tree =
      match tree.write path content with
      | .ok later => (.ok (), later)
      | .error error => (.error error, tree) := by
  show (become (tree.write path content)).run tree = _
  cases tree.write path content <;> rfl

/-- Make the directories that a file stands in, and write the file. -/
def store (path : String) (content : List UInt8) : StateM FileTree (Except IoError Unit) := do
  match ← access.makeDirectoryOf path with
  | .error cause => return .error cause
  | .ok () => access.write path content

/-- **All that storing a file can do**: it fails and keeps everything, or it writes the file once
the directories are there. -/
theorem store_cases (tree : FileTree) (path : String) (content : List UInt8) :
    (∃ cause kept, (store path content).run tree = (.error cause, kept) ∧ kept.Keeps tree []) ∨
    ∃ prepared later : FileTree, (store path content).run tree = (.ok (), later) ∧
      prepared.Keeps tree [] ∧ prepared.write path content = .ok later := by
  have gentle := gentle_makeDirectories (Path.directories path) tree
  cases made : (access.makeDirectoryOf path).run tree with
  | mk result prepared =>
  have keeps : prepared.Keeps tree [] := by
    have run : prepared = ((access.makeDirectoryOf path).run tree).2 := by rw [made]
    rw [run]
    exact gentle
  cases result with
  | error cause => exact .inl ⟨cause, prepared, run_bind_of_run made, keeps⟩
  | ok =>
      have writes := run_write prepared path content
      cases written : prepared.write path content with
      | error cause =>
          rw [written] at writes
          exact .inl ⟨cause, prepared, (run_bind_of_run made).trans writes, keeps⟩
      | ok later =>
          rw [written] at writes
          exact .inr ⟨prepared, later, (run_bind_of_run made).trans writes, keeps, written⟩

end FileTree

/-! ## One input -/

open FileTree

variable {tree : FileTree} {input : String} {log : List Event}

/-- An input without a package is not built. -/
theorem run_buildOne_error (layout : Json.Layout) (output : String) {failure : Failure}
    (attempt : packageOfRead input (tree.read input) = ⟨.error failure, log⟩) :
    (buildOne access layout input output).run tree = (⟨.error failure, log⟩, tree) := by
  have reads : (access.read input).run tree = (tree.read input, tree) := rfl
  unfold buildOne
  rw [run_bind_of_run reads, attempt]
  rfl

/-- Building an input with a package is storing the document of the package. -/
theorem run_buildOne_ok (layout : Json.Layout) (output : String) {package : Package}
    (attempt : packageOfRead input (tree.read input) = ⟨.ok package, log⟩) :
    (buildOne access layout input output).run tree =
      match (store output (Text.encode (package.document.chars layout))).run tree with
      | (.error cause, later) =>
          (⟨.error (.writeDocument output cause), log ++ [.documentWritten output]⟩, later)
      | (.ok (), later) =>
          (⟨.ok (.ofPackage input output package), log ++ [.documentWritten output]⟩, later) := by
  have reads : (access.read input).run tree = (tree.read input, tree) := rfl
  unfold buildOne store
  rw [run_bind_of_run reads, attempt]
  cases made : (access.makeDirectoryOf output).run tree with
  | mk result prepared =>
  rw [run_bind_of_run made, run_bind_of_run made]
  cases result with
  | error cause => rfl
  | ok =>
      cases written : (access.write output (Text.encode (package.document.chars layout))).run
          prepared with
      | mk result later =>
      refine (run_bind_of_run written).trans ?_
      cases result <;> rfl

/-- The package of a bundle is coherent. -/
theorem coherent_packageOfRead {path : String} {read : Except IoError (List UInt8)}
    {package : Package} {log : List Event}
    (attempt : packageOfRead path read = ⟨.ok package, log⟩) : package.Coherent := by
  unfold packageOfRead at attempt
  split at attempt
  · cases attempt
  · rename_i bundle
    split at attempt
    · cases attempt
    · rename_i built success
      cases attempt
      exact Package.coherent_ofAnalyses success

/-- **The package of a bundle that was saved is what a build assembles of it**, if no input is
missing. -/
theorem packageOfRead_saved {bundle : AnalysisBundle} {inputs : List CompleteAnalysis}
    (complete : bundle.analyses = inputs.map CompleteAnalysis.analysis)
    (stable : Format.bundle.Stable bundle) (valid : bundle.validate = .ok bundle)
    (isJson : isYaml input = false) (layout : Json.Layout) :
    ∃ log, packageOfRead input (.ok (Text.encode ((Format.bundle.toJson bundle).chars layout))) =
      ⟨.ok (Package.assemble bundle.index.resolver inputs), log⟩ := by
  obtain ⟨again, loads, same⟩ := AnalysisBundle.ofJson_toJson stable valid layout
  obtain ⟨built, success, result⟩ := Package.ofAnalyses_complete bundle.index.resolver inputs
  have read : bundleOfRead input (.ok (Text.encode ((Format.bundle.toJson bundle).chars layout))) =
      .ok again := by
    simp only [bundleOfRead, bundleOfContent, Text.decode?_encode, isJson, Bool.false_eq_true,
      if_false, loads]
    rfl
  have builds : Package.ofBundle again.value = .ok built := by
    rw [same, Package.ofBundle, complete]
    exact success
  refine ⟨again.log ++ built.log, ?_⟩
  simp only [packageOfRead, read, builds, result]

/-- The file that a report names holds a document of a package with the counts reported. -/
def Stored (tree : FileTree) (report : BuildReport) : Prop :=
  ∃ (package : Package) (layout : Json.Layout), package.Coherent ∧
    report = .ofPackage report.input report.output package ∧
    tree.read report.output = .ok (Text.encode (package.document.chars layout))

/-- What is stored stays, unless it is written over. -/
theorem Stored.of_keeps {tree later : FileTree} {report : BuildReport} {written : List Location}
    (stored : Stored tree report) (keeps : later.Keeps tree written)
    (spared : tree.destination report.output ∉ written) : Stored later report := by
  obtain ⟨package, layout, coherent, counts, holds⟩ := stored
  exact ⟨package, layout, coherent, counts, keeps.read holds spared⟩

/-- **What is reported of an input is stored in its output**, and no other file has changed. -/
theorem buildOne_stores (tree : FileTree) (layout : Json.Layout) (directory input : String) :
    let output := outputPath directory input
    let outcome := (buildOne access layout input output).run tree
    outcome.2.Keeps tree [tree.destination output] ∧
    ∀ report, outcome.1.value = .ok report →
      report.input = input ∧ report.output = output ∧ Stored outcome.2 report := by
  intro output outcome
  cases attempt : packageOfRead input (tree.read input) with | mk value log =>
  cases value with
  | error failure =>
      have fails : outcome = (⟨.error failure, log⟩, tree) :=
        run_buildOne_error layout output attempt
      rw [fails]
      exact ⟨Keeps.refl tree _, fun report success => by cases success⟩
  | ok package =>
      let extended := log ++ [.documentWritten output]
      have runs := run_buildOne_ok layout output attempt
      rcases store_cases tree output (Text.encode (package.document.chars layout)) with
        ⟨cause, kept, stores, keeps⟩ | ⟨prepared, later, stores, keeps, writes⟩
      · rw [stores] at runs
        have fails : outcome = (⟨.error (.writeDocument output cause), extended⟩, kept) := runs
        rw [fails]
        exact ⟨keeps.mono (List.nil_subset _), fun report success => by cases success⟩
      · rw [stores] at runs
        have builds : outcome = (⟨.ok (.ofPackage input output package), extended⟩, later) := runs
        obtain ⟨holds, spares⟩ := read_of_write_output writes
        rw [keeps.destination] at spares
        rw [builds]
        refine ⟨spares.trans keeps, ?_⟩
        intro report success
        cases success
        exact ⟨rfl, rfl, package, layout, coherent_packageOfRead attempt, rfl, holds⟩

/-! ## All inputs -/

/-- **What is reported of each input is stored when all are built**, as long as the outputs differ:
what is written later is written elsewhere. -/
theorem buildEach_stores (tree : FileTree) (layout : Json.Layout) (directory : String)
    {inputs : List String} (distinct : (inputs.map (outputPath directory)).Nodup) :
    let outcome := (buildEach access layout
      (inputs.map fun input => (input, outputPath directory input))).run tree
    outcome.2.Keeps tree (inputs.map fun input => tree.destination (outputPath directory input)) ∧
    ∀ reports, outcome.1.mapM Logged.value = .ok reports →
      reports.map BuildReport.input = inputs ∧
      ∀ report ∈ reports, report.output = outputPath directory report.input ∧
        Stored outcome.2 report := by
  induction inputs generalizing tree with
  | nil =>
      refine ⟨Keeps.refl tree [], ?_⟩
      intro reports success
      cases success
      exact ⟨rfl, fun report there => absurd there List.not_mem_nil⟩
  | cons input rest ih =>
      obtain ⟨fresh, distinct⟩ := List.nodup_cons.mp distinct
      obtain ⟨keepsFirst, storesFirst⟩ := buildOne_stores tree layout directory input
      cases first : (buildOne access layout input (outputPath directory input)).run tree with
      | mk attempt middle =>
      rw [first] at keepsFirst storesFirst
      obtain ⟨keepsRest, storesRest⟩ := ih middle distinct
      cases others : (buildEach access layout
          (rest.map fun input => (input, outputPath directory input))).run middle with
      | mk attempts final =>
      rw [others] at keepsRest storesRest
      intro outcome
      have runs : outcome = (attempt :: attempts, final) := by
        unfold outcome
        rw [List.map_cons, buildEach]
        exact (run_bind_of_run first).trans (run_bind_of_run others)
      rw [runs]
      simp only [keepsFirst.destination] at keepsRest
      refine ⟨keepsRest.trans keepsFirst, ?_⟩
      intro reports success
      rw [List.mapM_cons] at success
      obtain ⟨report, reported, success⟩ := bind_eq_ok.mp success
      obtain ⟨further, succeeds, success⟩ := bind_eq_ok.mp success
      cases success
      obtain ⟨named, placed, stored⟩ := storesFirst report reported
      obtain ⟨same, storedRest⟩ := storesRest further succeeds
      refine ⟨by rw [List.map_cons, named, same], ?_⟩
      intro other there
      rcases List.mem_cons.mp there with rfl | later
      · refine ⟨by rw [placed, named], stored.of_keeps keepsRest ?_⟩
        rw [keepsFirst.destination, placed]
        exact not_mem_destinations fresh
      · exact storedRest other later

/-- **A build that reports has stored what it reports**, one document for each input. -/
theorem buildAll_stores {tree : FileTree} {inputs : List String} {directory : String}
    {isCompact : Bool} {reports : List BuildReport} {log : List Event} {final : FileTree}
    (builds : (buildAll access inputs directory isCompact).run tree =
      (⟨.ok (.builds reports), log⟩, final)) :
    reports.map BuildReport.input = inputs ∧
    ∀ report ∈ reports, report.output = outputPath directory report.input ∧
      Stored final report := by
  unfold buildAll at builds
  split at builds
  · cases builds
  · rename_i outputs decides
    obtain ⟨rfl, distinct, -⟩ := outputPathsFrom_eq_ok decides
    rw [← List.map_prod_left_eq_zip] at builds
    have stores := buildEach_stores tree (if isCompact then .compact else .indented) directory
      distinct
    cases results : (buildEach access (if isCompact then .compact else .indented)
        (inputs.map fun input => (input, outputPath directory input))).run tree with
    | mk attempts later =>
    rw [results] at stores
    rw [run_bind_of_run results] at builds
    cases values : attempts.mapM Logged.value with
    | error failure =>
        rw [values] at builds
        cases builds
    | ok counted =>
        rw [values] at builds
        cases builds
        exact stores.2 reports values

/-- **A build of one input reports on it** when the document can be stored. -/
theorem run_buildAll_one {directory : String} {isCompact : Bool} {package : Package}
    (attempt : packageOfRead input (tree.read input) = ⟨.ok package, log⟩)
    (storable : ((store (outputPath directory input) (Text.encode (package.document.chars
      (if isCompact then .compact else .indented)))).run tree).1.toOption = some ()) :
    ∃ log final, (buildAll access [input] directory isCompact).run tree =
      (⟨.ok (.builds [.ofPackage input (outputPath directory input) package]), log⟩, final) := by
  let output := outputPath directory input
  let layout : Json.Layout := if isCompact then .compact else .indented
  have builds := run_buildOne_ok layout output attempt
  cases stores : (store output (Text.encode (package.document.chars layout))).run tree with
  | mk result final =>
  rw [stores] at storable builds
  cases result with
  | error cause => cases storable
  | ok =>
      have all : (buildEach access layout [(input, output)]).run tree =
          ([⟨.ok (.ofPackage input output package), log ++ [.documentWritten output]⟩], final) :=
        run_bind_of_run builds
      exact ⟨_, _, run_bind_of_run all⟩

/-! ## Summaries -/

/-- The summary counts what the report counts. -/
def BuildReport.Agrees (report : BuildReport) (summary : SummaryReport) : Prop :=
  summary.artifacts.length = report.artifacts ∧ summary.classes = report.classes ∧
    summary.resolvedCalls = report.resolvedCalls ∧
    summary.unresolvedCalls = report.unresolvedCalls

/-- **A summary of what is stored agrees with the report of it.** -/
theorem summarize_stored {tree : FileTree} {report : BuildReport} (stored : Stored tree report) :
    ∃ summary, (summarize access report.output).run tree = (⟨.ok (.summary summary), []⟩, tree) ∧
      report.Agrees summary := by
  obtain ⟨package, layout, coherent, counts, holds⟩ := stored
  obtain ⟨artifacts, classes, resolved, unresolved⟩ := coherent.sizes_document
  have reads : (access.read report.output).run tree = (tree.read report.output, tree) := rfl
  have decodes := package.document.ofJson_decode_encode layout
  have means : documentOfRead report.output (tree.read report.output) = .ok package.document := by
    rw [holds]
    show (Document.ofJson (Text.decode _)).mapError _ = _
    rw [decodes]
    rfl
  refine ⟨.ofDocument report.output package.document, ?_, ?_⟩
  · unfold summarize
    rw [run_bind_of_run reads, means]
    rfl
  · rw [counts]
    refine ⟨?_, classes, resolved, unresolved⟩
    exact (List.length_map _).trans artifacts

/-- **Nothing that is counted is lost in a document.**  Whatever operations lead to a package,
different methods have different identities, the document has as many artifacts, classes and calls
as the package, each class has a name of its own and as many expected calls as its record, and the
targets of the calls are attributed in the one half and not in the other.  So when a build reports
on its inputs, a summary of each document counts what was reported of it. -/
theorem document_loses_nothing :
    (∀ operations : List Operation,
      let package := (Ledger.run operations).package
      let document := package.document
      (∀ one other, package.Knows one → package.Knows other →
        package.identity one = package.identity other → one = other) ∧
      (document.artifacts.size = package.artifacts.size ∧
        document.classes.size = package.classes.size ∧
        document.resolvedCalls.size = package.resolvedCalls.size ∧
        document.unresolvedCalls.size = package.unresolvedCalls.size) ∧
      (document.classes.toList.map ClassEntry.name).Nodup ∧
      (∀ entry ∈ document.classes, ∃ record, package.classRecord? entry.name = some record ∧
        entry = package.classEntry record ∧
        entry.expectedCalls.size = record.expectedCalls.size) ∧
      (∀ entry ∈ document.resolvedCalls, entry.target.isResolved = true) ∧
      (∀ entry ∈ document.unresolvedCalls, entry.target.isResolved = false)) ∧
    (∀ tree inputs directory isCompact reports log final,
      (buildAll access inputs directory isCompact).run tree =
        (⟨.ok (.builds reports), log⟩, final) →
      reports.map BuildReport.input = inputs ∧
      ∀ report ∈ reports, report.output = outputPath directory report.input ∧
        ∃ summary, (summarize access report.output).run final =
          (⟨.ok (.summary summary), []⟩, final) ∧ report.Agrees summary) := by
  constructor
  · intro operations package document
    have coherent : package.Coherent := (Ledger.balanced_run operations).coherent
    have traced : package.Traced := Package.traced_run operations
    refine ⟨fun _ _ first second => Package.identity_injective first second,
      coherent.sizes_document, coherent.distinct_names, ?_,
      fun _ there => coherent.resolved.isResolved_target there,
      fun _ there => coherent.unresolved.isResolved_target there⟩
    intro entry there
    obtain ⟨record, recorded, same⟩ := coherent.exists_record there
    have counted := traced.size_expectedCalls recorded
    rw [← same] at counted
    exact ⟨record, recorded, same, counted⟩
  · intro tree inputs directory isCompact reports log final builds
    obtain ⟨named, stores⟩ := buildAll_stores builds
    refine ⟨named, ?_⟩
    intro report there
    obtain ⟨placed, stored⟩ := stores report there
    exact ⟨placed, summarize_stored stored⟩

/-- Two calls, one to a class that the table knows and one to the platform. -/
def outboundGraph : CallGraph where
  edges :=
    [⟨⟨⟨"a.B", .application⟩, "run()V"⟩, ⟨⟨"a.A", .application⟩, "run()V"⟩, .virtual⟩,
      ⟨⟨⟨"a.A", .application⟩, "run()V"⟩, ⟨⟨"java.io.Out", .primordial⟩, "print()V"⟩, .static⟩]

/-- An artifact with the calls, and with classes two of which dispatch to a third. -/
def outboundInput : CompleteAnalysis :=
  ⟨⟨"g", "a", "1"⟩, Package.mutualSuperclasses, outboundGraph⟩

/-- The bundle of the artifact. -/
def outboundBundle : AnalysisBundle where
  classArtifacts := SortedMap.ofList [("La/A;", "g:a:1"), ("a.B", "g:a:1")]
  analyses := [outboundInput.analysis]

/-- A tree with one file, the text that the bundle is saved as. -/
def bundleTree : FileTree where
  entries := SortedMap.ofList
    [(["a.json"], .file (Text.encode ((Format.bundle.toJson outboundBundle).chars .compact)))]

/-- What a build makes of the bundle. -/
def outboundPackage : Package :=
  .assemble outboundBundle.index.resolver [outboundInput]

theorem packageOfRead_bundleTree :
    ∃ log, packageOfRead "a.json" (bundleTree.read "a.json") = ⟨.ok outboundPackage, log⟩ := by
  have stable : Format.bundle.Stable outboundBundle := by
    unfold Format.Stable
    decide +kernel
  exact packageOfRead_saved rfl stable rfl (by decide) .compact

/-- The counts are those of the document, which needs no ids. -/
theorem report_outboundPackage :
    BuildReport.ofPackage "a.json" "out/a.lapp.json" outboundPackage =
      ⟨"a.json", "out/a.lapp.json", 1, 4, 1, 1⟩ := by
  have shows := Package.shows_assemble outboundBundle.index.resolver [outboundInput]
  obtain ⟨artifacts, classes, resolved, unresolved⟩ := shows.coherent.sizes_document
  rw [shows.document] at artifacts classes resolved unresolved
  unfold BuildReport.ofPackage outboundPackage
  rw [← artifacts, ← classes, ← resolved, ← unresolved]
  decide +kernel

theorem run_buildAll_bundleTree :
    ∃ log final, (buildAll access ["a.json"] "out" true).run bundleTree =
      (⟨.ok (.builds [⟨"a.json", "out/a.lapp.json", 1, 4, 1, 1⟩]), log⟩, final) := by
  obtain ⟨log, attempt⟩ := packageOfRead_bundleTree
  rw [← report_outboundPackage]
  exact run_buildAll_one attempt (by decide +kernel)

/-- The class of the bundle that is dispatched to has an entry with two expected calls. -/
theorem size_expectedCalls_mutualClass :
    ((ArtifactResolver.owning "g:a:1").classEntry Package.mutualSuperclasses
      Package.mutualClass).expectedCalls.size = 2 := by
  let resolver := ArtifactResolver.owning "g:a:1"
  have sources : (Package.mutualSuperclasses.supertypes Package.mutualClass).sources "run()V" =
      [(Package.mutualBase, .override), (Package.rootInterface, .implements)] := by
    rw [Package.supertypes_mutualSuperclasses]
    decide
  have edges : resolver.expectedEdges Package.mutualSuperclasses Package.mutualClass =
      [(Package.mutualBase, .override), (Package.rootInterface, .implements)].map
        (resolver.expectedEdge Package.mutualClass "run()V") := by
    show resolver.edgesTo _ _ { selector := "run()V" } ++ [] = _
    rw [ArtifactResolver.edgesTo, if_pos (by decide), sources, List.append_nil]
  show (SortedSet.ofList ((resolver.expectedEdges _ _).map ExpectedEdge.entry)).size = 2
  rw [edges]
  decide

/-- The record of that class and its entry have both calls.  The bundle is built, and the summary of
its document counts what was reported: the artifact, the classes, and a call in either half. -/
theorem document_loses_nothing_bundle :
    (let operations := [.insertHierarchy (.owning "g:a:1") Package.mutualSuperclasses]
      let package := (Ledger.run operations).package
      ∃ entry ∈ package.document.classes, ∃ record, entry.name = "a.A" ∧
        package.classRecord? "a.A" = some record ∧ entry = package.classEntry record ∧
        entry.expectedCalls.size = 2 ∧ record.expectedCalls.size = 2) ∧
    ∃ log final summary,
      (buildAll access ["a.json"] "out" true).run bundleTree =
        (⟨.ok (.builds [⟨"a.json", "out/a.lapp.json", 1, 4, 1, 1⟩]), log⟩, final) ∧
      (summarize access "out/a.lapp.json").run final = (⟨.ok (.summary summary), []⟩, final) ∧
      summary.artifacts.length = 1 ∧ summary.classes = 4 ∧ summary.resolvedCalls = 1 ∧
      summary.unresolvedCalls = 1 := by
  constructor
  · intro operations package
    have reached (hierarchy : ClassHierarchy) :
        (({} : Package).insertClasses (.owning "g:a:1") hierarchy hierarchy.classes).value.1 =
          (Ledger.run [.insertHierarchy (.owning "g:a:1") hierarchy]).package := rfl
    have absent : ({} : Package).classRecord? Package.mutualClass.qualifiedName = none := rfl
    have first : Package.mutualSuperclasses.first? "a.A" = some Package.mutualClass := by decide
    have records := Package.insertClasses_records (.owning "g:a:1") Package.mutualSuperclasses
      absent first
    rw [reached] at records
    obtain ⟨record, there, outline, realizes⟩ := records
    have entered := Package.classEntry_of_realizes outline realizes
    have listed : record ∈ package.classRecords := Package.mem_classRecords_iff.mpr ⟨_, there⟩
    have member : package.classEntry record ∈ package.document.classes :=
      SortedSet.mem_ofList.mpr (List.mem_map_of_mem listed)
    obtain ⟨-, -, -, counts, -⟩ := document_loses_nothing.1 operations
    obtain ⟨kept, found, same, size⟩ := counts _ member
    have named : (package.classEntry record).name = "a.A" := by rw [entered]; rfl
    have two : (package.classEntry record).expectedCalls.size = 2 := by
      rw [entered, size_expectedCalls_mutualClass]
    rw [named] at found
    exact ⟨_, member, kept, named, found, same, two, size.symm.trans two⟩
  · obtain ⟨log, final, run⟩ := run_buildAll_bundleTree
    obtain ⟨-, agree⟩ := document_loses_nothing.2 _ _ _ _ _ _ _ run
    obtain ⟨-, summary, reads, counts⟩ := agree _ List.mem_cons_self
    exact ⟨log, final, summary, run, reads, counts⟩

end ProgramModel
