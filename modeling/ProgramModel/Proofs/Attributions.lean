/-
# ProgramModel.Proofs.Attributions -- a class and its methods have one artifact

A build attributes at many points: at the record of a class, at every method that the class
declares, at the methods of its supertypes, and at both ends of a call.  Each time the
resolver gets a reference as it stands there, in its own spelling and of its own scope.

Nothing enters a registry of a build but what the resolver makes of some reference
(`Identifies`, which the writes of a build keep).  A resolver that comes from an index
looks at the dotted name only, so what it attributes at all it attributes to the entry of
that name.  The records follow, since a record is that of a class met under its name.
`Attributed` puts both halves together, and `attributed_ofBundle` says that a build has it.

What a build reports of clashes is computed from the classes that it meets
(`filter_isClash_ofAnalyses`, for every resolver).  One that looks at the dotted name only
cannot give two artifacts to one name, so under it nothing is reported
(`attributions_cohere`).
-/
import ProgramModel.Proofs.Invariants
import ProgramModel.Proofs.Sources

namespace ProgramModel

set_option autoImplicit false

/-! ## What enters a registry -/

namespace ArtifactResolver

/-- Every method of the registry is what the resolver makes of some reference. -/
def Identifies (resolver : ArtifactResolver) (registry : MethodRegistry) : Prop :=
  ∀ identity ∈ registry.identities, ∃ method, identity = resolver.identify method

variable {resolver : ArtifactResolver} {registry : MethodRegistry}

theorem identifies_empty (resolver : ArtifactResolver) : resolver.Identifies ∅ := by
  intro identity there
  cases there

theorem Identifies.resolve (identifies : resolver.Identifies registry) (method : MethodReference) :
    resolver.Identifies (resolver.resolve registry method).2 := by
  unfold ArtifactResolver.resolve
  rcases MethodRegistry.intern_cases registry (resolver.identify method) with
    ⟨id, -, same⟩ | ⟨-, -, methods⟩
  · rw [same]
    exact identifies
  · intro identity there
    unfold MethodRegistry.identities at there
    rw [methods, List.map_append, List.mem_append] at there
    rcases there with old | new
    · exact identifies identity old
    · exact ⟨method, by simpa using new⟩

theorem Identifies.tagKind (identifies : resolver.Identifies registry) (id : MethodId)
    (kind : MethodKind) : resolver.Identifies (registry.tagKind id kind) := by
  have same : (registry.tagKind id kind).identities = registry.identities :=
    MethodRegistry.identities_modifyMetadata registry id _
  intro identity there
  rw [same] at there
  exact identifies identity there

end ArtifactResolver

theorem ArtifactResolver.keeps_identifies (resolver : ArtifactResolver) :
    resolver.Keeps resolver.Identifies where
  resolve _ method identifies := identifies.resolve method
  tagKind _ id kind identifies := identifies.tagKind id kind

/-- **The methods of a build are those that its resolver identifies.** -/
theorem Package.identifies_ofAnalyses {resolver : ArtifactResolver}
    {analyses : List ArtifactAnalysis} {built : Logged Package}
    (success : ofAnalyses resolver analyses = .ok built) :
    resolver.Identifies built.value.methods :=
  resolver.keeps_identifies.ofAnalyses (ArtifactResolver.identifies_empty resolver) success

/-! ## What an index attributes -/

/-- What the resolver of an index attributes, it attributes to the entry of the declaring type. -/
theorem ArtifactIndex.entry_of_identify {index : ArtifactIndex} {method : MethodReference}
    (resolved : (index.resolver.identify method).isResolved = true) :
    (index.resolver.identify method).artifact =
      index.classes.get? (index.resolver.identify method).owner := by
  simp only [ArtifactResolver.identify, ArtifactResolver.artifactOf,
    MethodIdentity.isResolved] at resolved ⊢
  split at resolved
  · rename_i attributable
    rw [if_pos attributable]
    rfl
  · cases resolved

namespace Package

/-- The attributions of the package are those of the index: each record has the entry of its name,
and each method that has an artifact has the entry of its declaring type. -/
structure Attributed (index : ArtifactIndex) (package : Package) : Prop where
  records : ∀ name record, package.classRecord? name = some record →
    record.name = name ∧ record.artifact = index.classes.get? name
  methods : ∀ id identity, package.methods.Denotes id identity → identity.isResolved = true →
    identity.artifact = index.classes.get? identity.owner

variable {index : ArtifactIndex} {package : Package} {id other : MethodId}
  {identity another : MethodIdentity}

/-- Resolved methods of one class have one artifact. -/
theorem Attributed.artifact_unique (attributed : package.Attributed index)
    (there : package.methods.Denotes id identity) (also : package.methods.Denotes other another)
    (resolved : identity.isResolved = true) (otherwise : another.isResolved = true)
    (owners : identity.owner = another.owner) : identity.artifact = another.artifact := by
  rw [attributed.methods id identity there resolved,
    attributed.methods other another also otherwise, owners]

/-- A class has at most one resolved and one unresolved method of a symbol. -/
theorem Attributed.id_unique (attributed : package.Attributed index)
    (there : package.methods.Denotes id identity) (also : package.methods.Denotes other another)
    (owners : identity.owner = another.owner) (symbols : identity.symbol = another.symbol)
    (alike : identity.isResolved = another.isResolved) : id = other := by
  have artifacts : identity.artifact = another.artifact := by
    cases resolved : identity.isResolved with
    | true =>
        exact attributed.artifact_unique there also resolved (alike.symm.trans resolved) owners
    | false =>
        have absent : identity.artifact = none := by
          simpa [MethodIdentity.isResolved] using resolved
        have missing : another.artifact = none := by
          simpa [MethodIdentity.isResolved] using alike.symm.trans resolved
        rw [absent, missing]
  obtain rfl : identity = another := by
    cases identity
    cases another
    simp_all
  exact there.id_unique also

/-- **A build attributes as the index of its bundle does.** -/
theorem attributed_ofBundle {bundle : AnalysisBundle} {built : Logged Package}
    (success : ofBundle bundle = .ok built) : built.value.Attributed bundle.index where
  records name record there := by
    obtain ⟨placement, first, outline, -⟩ := expects_ofAnalyses success there
    obtain ⟨-, named⟩ := Placement.mem_names_of_first? first
    have name_eq : record.name = placement.name := congrArg ClassRecord.name outline
    have artifact_eq : record.artifact = bundle.index.classes.get? placement.name :=
      congrArg ClassRecord.artifact outline
    rw [named] at name_eq artifact_eq
    exact ⟨name_eq, artifact_eq⟩
  methods id identity denotes resolved := by
    obtain ⟨method, rfl⟩ := identifies_ofAnalyses success identity (List.mem_of_getElem? denotes)
    exact ArtifactIndex.entry_of_identify resolved

end Package

/-! ## What is reported -/

namespace PackageBuilder

theorem filter_isClash_setArtifacts (builder : PackageBuilder) (artifacts : List ArtifactRecord) :
    (builder.setArtifacts artifacts).log.filter Event.isClash = [] := by
  induction artifacts generalizing builder with
  | nil => rfl
  | cons artifact rest ih =>
      rw [setArtifacts]
      split
      · exact ih _
      · exact ih _

theorem filter_isClash_insertCallGraphs (builder : PackageBuilder)
    (inputs : List CompleteAnalysis) :
    (builder.insertCallGraphs inputs).log.filter Event.isClash = [] := by
  induction inputs generalizing builder with
  | nil => rfl
  | cons input rest ih =>
      rw [insertCallGraphs]
      exact ih _

/-- Before the first call graph, the clashes of a hierarchy are what meeting its classes reports. -/
theorem insertHierarchy_eq_meetAll {builder : PackageBuilder}
    (open_ : builder.phase = .hierarchies) (input : CompleteAnalysis) :
    ∃ step, builder.insertHierarchy input.hierarchy = .ok step ∧
      let met := builder.package.meetAll
        (Insertion.placements ⟨builder.resolver, input.hierarchy⟩)
      step.value.1 = { builder with package := met.value } ∧
      step.log.filter Event.isClash = met.log := by
  obtain ⟨resolver, package, phase⟩ := builder
  obtain rfl : phase = .hierarchies := open_
  obtain ⟨value, log⟩ := package.insertHierarchy_eq_meetAll ⟨resolver, input.hierarchy⟩
  refine ⟨_, rfl, ?_, ?_⟩
  · exact congrArg (fun package => PackageBuilder.mk resolver package .hierarchies) value
  · exact (congrArg (List.filter Event.isClash) (List.append_nil _)).trans log

theorem filter_isClash_insertHierarchies {builder : PackageBuilder}
    (open_ : builder.phase = .hierarchies) (inputs : List CompleteAnalysis) :
    ∃ done, builder.insertHierarchies inputs = .ok done ∧
      done.log.filter Event.isClash = (builder.package.meetAll
        (builder.resolver.placements (inputs.map CompleteAnalysis.analysis))).log := by
  rw [ArtifactResolver.placements_complete]
  induction inputs generalizing builder with
  | nil => exact ⟨pure builder, rfl, rfl⟩
  | cons input rest ih =>
      obtain ⟨step, inserts, next, clashes⟩ := insertHierarchy_eq_meetAll open_ input
      have stays : step.value.1.phase = .hierarchies := by
        rw [next]
        exact open_
      obtain ⟨last, finishes, others⟩ := ih stays
      rw [insertHierarchies, inserts]
      simp only [bind, Except.bind, finishes]
      refine ⟨_, rfl, ?_⟩
      rw [next] at others
      rw [List.flatMap_cons, Package.meetAll_append]
      show List.filter Event.isClash (_ :: (step.log ++ last.log)) = _ ++ _
      rw [List.filter_cons_of_neg Bool.false_ne_true, List.filter_append, clashes, others]

end PackageBuilder

/-- **The clashes that a build reports are those among the classes that it meets.** -/
theorem Package.filter_isClash_ofAnalyses {resolver : ArtifactResolver}
    {analyses : List ArtifactAnalysis} {built : Logged Package}
    (success : Package.ofAnalyses resolver analyses = .ok built) :
    built.log.filter Event.isClash = Placement.reports (resolver.placements analyses) := by
  obtain ⟨inputs, rfl, -⟩ := Package.complete_of_ofAnalyses resolver success
  let artifacts := (inputs.map CompleteAnalysis.analysis).map ArtifactAnalysis.artifact
  let started := PackageBuilder.setArtifacts { resolver } artifacts
  have value : started.value =
      { resolver, package := artifacts.foldl Package.addArtifact {} } :=
    PackageBuilder.value_setArtifacts { resolver } artifacts
  have open_ : started.value.phase = .hierarchies := by rw [value]
  obtain ⟨classified, inserts, clashes⟩ :=
    PackageBuilder.filter_isClash_insertHierarchies open_ inputs
  -- No class has a record yet, so a class can only clash with an earlier one.
  have empty (name : String) : started.value.package.outline? name = none := by
    have entered := (Package.foldl_enterArtifact {} inputs).1
    rw [value]
    unfold Package.outline? Package.classRecord?
    simp only [artifacts, List.map_map, List.foldl_map]
    exact congrArg (fun classes => (SortedMap.get? classes name).map ClassRecord.outline) entered
  have reported : classified.log.filter Event.isClash =
      Placement.reports (resolver.placements (inputs.map CompleteAnalysis.analysis)) := by
    rw [clashes, Package.log_meetAll]
    simp only [empty, Option.none_or]
    rw [value]
    rfl
  unfold Package.ofAnalyses at success
  rw [mapM_complete_analysis] at success
  simp only [bind, Except.bind] at success
  rw [inserts] at success
  cases success
  show List.filter Event.isClash (started.log ++ (classified.log ++
    ((classified.value.insertCallGraphs inputs).log ++ [_]))) = _
  rw [List.filter_append, List.filter_append, List.filter_append,
    PackageBuilder.filter_isClash_setArtifacts, PackageBuilder.filter_isClash_insertCallGraphs,
    reported]
  exact List.append_nil _

/-- Where the artifact of a class follows from its name, no two classes clash. -/
theorem Placement.reports_eq_nil {placements : List Placement} (entry : String → Option String)
    (named : ∀ placement ∈ placements, placement.artifact = entry placement.name) :
    reports placements = [] := by
  refine List.flatMap_eq_nil_iff.mpr fun placement there => ?_
  obtain ⟨first, earliest⟩ := exists_first? there
  obtain ⟨earlier, same⟩ := mem_names_of_first? earliest
  have artifacts : first.artifact = placement.artifact := by
    rw [named first earlier, named placement there, same]
  unfold kept?
  rw [earliest]
  exact if_pos artifacts

/-! ## Coherence -/

/-- **Attribution is coherent per class.**  The record of a name has the artifact that the index of
the bundle has for the name, and so has every method of the class that is attributed at all.  Hence
the attributed methods of a class have one artifact, which is that of its record if there is one;
no symbol of a class is entered twice among the attributed methods or twice among the others; and
no build reports that it met a class under a second artifact. -/
theorem attributions_cohere {bundle : AnalysisBundle} {built : Logged Package}
    (success : Package.ofBundle bundle = .ok built) :
    let package := built.value
    let entry := bundle.index.classes.get?
    (∀ name record, package.classRecord? name = some record →
      record.name = name ∧ record.artifact = entry name) ∧
    (∀ id method, package.methods.get? id = some method → method.identity.isResolved = true →
      method.identity.artifact = entry method.identity.owner ∧
      (∀ other another, package.methods.get? other = some another →
        another.identity.isResolved = true → another.identity.owner = method.identity.owner →
        another.identity.artifact = method.identity.artifact) ∧
      ∀ record, package.classRecord? method.identity.owner = some record →
        record.artifact = method.identity.artifact) ∧
    (∀ id method other another, package.methods.get? id = some method →
      package.methods.get? other = some another →
      method.identity.owner = another.identity.owner →
      method.identity.symbol = another.identity.symbol →
      method.identity.isResolved = another.identity.isResolved → id = other) ∧
    ∀ event ∈ built.log, event.isClash = false := by
  intro package entry
  have attributed : package.Attributed bundle.index := Package.attributed_ofBundle success
  have denotes {id : MethodId} {method : Method} (there : package.methods.get? id = some method) :
      package.methods.Denotes id method.identity :=
    MethodRegistry.denotes_iff.mpr ⟨method, there, rfl⟩
  refine ⟨attributed.records, ?_, ?_, ?_⟩
  · intro id method there resolved
    have own := attributed.methods id method.identity (denotes there) resolved
    refine ⟨own, ?_, ?_⟩
    · intro other another also otherwise owners
      exact attributed.artifact_unique (denotes also) (denotes there) otherwise resolved owners
    · intro record recorded
      exact (attributed.records _ record recorded).2.trans own.symm
  · intro id method other another there also owners symbols alike
    exact attributed.id_unique (denotes there) (denotes also) owners symbols alike
  · have quiet : built.log.filter Event.isClash = [] := by
      rw [Package.filter_isClash_ofAnalyses success]
      refine Placement.reports_eq_nil entry fun placement there => ?_
      obtain ⟨own, -⟩ := ArtifactResolver.mem_placements.mp there
      show placement.resolver.ofClass placement.node.reference = _
      rw [own]
      rfl
    intro event listed
    simpa using List.filter_eq_nil_iff.mp quiet event listed

/-- A class as the artifact that ships it lists it. -/
def shippedClass : ClassNode :=
  { reference := ⟨"La/A;", .extension⟩, methods := [{ selector := "run()V", isStatic := true }] }

/-- The class once more, as another artifact lists it that has it, too. -/
def copiedClass : ClassNode :=
  { reference := ⟨" a.A ", .application⟩, methods := [{ selector := "stop()V" }] }

/-- The two artifacts; the second one calls the class under a third spelling. -/
def copiedInputs : List CompleteAnalysis :=
  [⟨⟨"g", "a", "1"⟩, ⟨[shippedClass]⟩, {}⟩,
   ⟨⟨"g", "b", "1"⟩, ⟨[copiedClass]⟩,
    ⟨[⟨⟨⟨"a.B", .other "synthetic"⟩, "main()V"⟩, ⟨⟨"La/A", .primordial⟩, "run()V"⟩, .static⟩]⟩⟩]

/-- The bundle of the two, in which the class is the first one's. -/
def copiedBundle : AnalysisBundle where
  classArtifacts := SortedMap.ofList [("a/A", "g:a:1")]
  analyses := copiedInputs.map CompleteAnalysis.analysis

/-- The class has a record and an attributed method, both of the artifact that ships it, and the
copy is not reported. -/
theorem attributions_cohere_copied :
    ∃ built record method, Package.ofBundle copiedBundle = .ok built ∧
      built.value.classRecord? "a.A" = some record ∧ record.artifact = some "g:a:1" ∧
      built.value.methods.get? ⟨2⟩ = some method ∧ method.identity.owner = "a.A" ∧
      method.identity.artifact = record.artifact ∧
      ∀ event ∈ built.log, event.isClash = false := by
  obtain ⟨built, success, result⟩ :=
    Package.ofAnalyses_complete copiedBundle.index.resolver copiedInputs
  have met : built.value.methods.get? ⟨2⟩ =
      some { identity := ⟨"a.A", "run()V", some "g:a:1"⟩ } := by
    rw [result]
    decide +kernel
  have first : Placement.first? (copiedBundle.index.resolver.placements copiedBundle.analyses)
      "a.A" = some ⟨copiedBundle.index.resolver, ⟨[shippedClass]⟩, shippedClass⟩ := rfl
  obtain ⟨record, there, -, -⟩ := Package.records_ofAnalyses success first
  obtain ⟨records, methods, -, quiet⟩ := attributions_cohere success
  obtain ⟨-, -, own⟩ := methods _ _ met rfl
  refine ⟨built, record, _, success, there, (records _ record there).2.trans ?_, met, rfl,
    (own record there).symm, quiet⟩
  decide

end ProgramModel
