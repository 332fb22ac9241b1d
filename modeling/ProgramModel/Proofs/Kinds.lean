/-
# ProgramModel.Proofs.Kinds -- which methods of a build have a kind, and which kind

A class that is drafted notes the kinds that it declares (`Package.noted_draftClass`).  Only a class
whose name has no record is drafted, so of all classes of a name the first one alone has noted
anything (`Package.noted_meetAll`).  Call graphs note nothing.  So a method of a build has a kind
exactly when the first class of its name declares it under its identity, and nothing else is noted
about any method (`kinds_are_exact`).
-/
import ProgramModel.Proofs.Sources

namespace ProgramModel

set_option autoImplicit false

/-! ## What may be noted -/

/-- Nothing is noted about the method but perhaps its kind. -/
def Method.NotesKind (method : Method) : Prop :=
  method.metadata = ∅ ∨
    ∃ kind : MethodKind, method.metadata = (∅ : Metadata).insert Metadata.kindKey kind.text

/-- The metadata of such a method is its kind. -/
theorem Method.NotesKind.toList_metadata {method : Method} (notes : method.NotesKind) :
    method.metadata.toList = (method.kind.map fun kind => (Metadata.kindKey, kind)).toList := by
  unfold Method.kind
  rcases notes with blank | ⟨kind, tagged⟩
  · rw [blank]
    rfl
  · rw [tagged, SortedMap.get?_insert_self]
    rfl

/-- Nothing is noted about any method but perhaps its kind. -/
def MethodRegistry.NotesKinds (registry : MethodRegistry) : Prop :=
  ∀ id method, registry.get? id = some method → method.NotesKind

/-! ## What classes note -/

/-- The kind that the first class of its name declares for a method. -/
def Placement.kind? (placements : List Placement) (identity : MethodIdentity) :
    Option MethodKind :=
  (first? placements identity.owner).bind fun first =>
    first.resolver.declaredKind? first.node identity

namespace Package

variable (package : Package) (placement : Placement) (identity : MethodIdentity)

/-- A class whose name has a record notes nothing; any other one notes the kinds that it
declares. -/
theorem noted_meet :
    (package.meet placement).value.1.methods.noted identity =
      (package.methods.noted identity).tagged
        (if package.lacks placement.name then
          placement.resolver.declaredKind? placement.node identity else none) := by
  unfold meet lacks Placement.name
  rcases insertClass_cases placement.resolver placement.hierarchy package placement.node with
    ⟨kept, there, same⟩ | ⟨absent, new⟩
  · rw [same, there]
    rfl
  · rw [new, absent]
    exact noted_draftClass placement.resolver placement.hierarchy placement.node _ identity

/-- **Of the classes with a name only the first one notes anything**, and it does so if the name
has no record before. -/
theorem noted_meetAll (placements : List Placement) :
    (package.meetAll placements).value.methods.noted identity =
      (package.methods.noted identity).tagged
        (if package.lacks identity.owner then Placement.kind? placements identity else none) := by
  induction placements generalizing package with
  | nil => simp [meetAll, Placement.kind?, Placement.first?, Metadata.tagged]
  | cons placement rest ih =>
      rw [value_meetAll_cons, ih, noted_meet, lacks_meet, Placement.kind?, Placement.kind?,
        Placement.first?_cons]
      by_cases own : placement.name = identity.owner
      · -- The name has a record from now on, so the rest notes nothing.
        simp only [own, beq_self_eq_true, Bool.not_true, Bool.and_false, if_true,
          Option.bind_some]
        rfl
      · have apart : (placement.name == identity.owner) = false := beq_eq_false_iff_ne.mpr own
        rw [ArtifactResolver.declaredKind?_of_ne (Ne.symm own)]
        simp only [apart, Bool.not_false, Bool.and_true, if_neg own, ite_self]
        rfl

end Package

/-! ## What a build notes -/

section Build

variable {resolver : ArtifactResolver} {analyses : List ArtifactAnalysis} {built : Logged Package}
  (success : Package.ofAnalyses resolver analyses = .ok built)
include success

/-- **A build notes the kinds that the first classes of their names declare, and nothing else.** -/
theorem Package.noted_ofAnalyses (identity : MethodIdentity) :
    built.value.methods.noted identity =
      (∅ : Metadata).tagged (Placement.kind? (resolver.placements analyses) identity) := by
  obtain ⟨started, noClasses, noMethods, appends, -⟩ := meetAll_of_ofAnalyses success
  have lacking : started.lacks identity.owner = true := by
    unfold lacks classRecord?
    rw [noClasses]
    rfl
  have blank : started.methods.noted identity = ∅ := by
    rw [noMethods]
    rfl
  rw [MethodRegistry.noted_appends appends, noted_meetAll, if_pos lacking, blank]

variable {id : MethodId} {method : Method} (there : built.value.methods.get? id = some method)
include there

theorem Package.metadata_ofAnalyses :
    method.metadata =
      (∅ : Metadata).tagged (Placement.kind? (resolver.placements analyses) method.identity) := by
  rw [← MethodRegistry.noted_of_get? there]
  exact noted_ofAnalyses success method.identity

/-- So the kind of a method is that one, and there is no other entry. -/
theorem Package.kind_ofAnalyses :
    method.kind =
        (Placement.kind? (resolver.placements analyses) method.identity).map MethodKind.text ∧
      ∀ key, key ≠ Metadata.kindKey → method.metadata.get? key = none := by
  unfold Method.kind
  rw [metadata_ofAnalyses success there]
  cases Placement.kind? (resolver.placements analyses) method.identity with
  | none => exact ⟨rfl, fun key other => rfl⟩
  | some kind =>
      refine ⟨Metadata.get?_tagged _ _, fun key other => ?_⟩
      exact SortedMap.get?_insert_of_ne _ _ other

end Build

/-- **A build notes nothing about a method but perhaps its kind.** -/
theorem Package.notesKinds_ofAnalyses {resolver : ArtifactResolver}
    {analyses : List ArtifactAnalysis} {built : Logged Package}
    (success : ofAnalyses resolver analyses = .ok built) : built.value.methods.NotesKinds := by
  intro id method there
  have noted := metadata_ofAnalyses success there
  cases kind : Placement.kind? (resolver.placements analyses) method.identity with
  | none =>
      rw [kind] at noted
      exact .inl noted
  | some declared =>
      rw [kind] at noted
      exact .inr ⟨declared, noted⟩

/-- A kind comes from the first class of the name. -/
theorem kind?_eq_some_iff {resolver : ArtifactResolver} {analyses : List ArtifactAnalysis}
    {identity : MethodIdentity} {kind : MethodKind} :
    Placement.kind? (resolver.placements analyses) identity = some kind ↔
      ∃ first, Placement.first? (resolver.placements analyses) identity.owner = some first ∧
        identity = resolver.identify (first.node.methodReference identity.symbol) ∧
        ∃ declared, first.node.lastDeclared? identity.symbol = some declared ∧
          first.node.kindOf declared = kind := by
  unfold Placement.kind?
  rw [Option.bind_eq_some_iff]
  refine exists_congr fun first => and_congr_right fun earliest => ?_
  obtain ⟨listed, -⟩ := Placement.mem_names_of_first? earliest
  obtain ⟨own, -⟩ := ArtifactResolver.mem_placements.mp listed
  rw [own, ArtifactResolver.declaredKind?_eq_some_iff]

/-- A class has declarations of a selector when it has a last one. -/
theorem ClassNode.declares_iff {node : ClassNode} {selector : String} :
    node.Declares selector ↔ ∃ declared, node.lastDeclared? selector = some declared := by
  rw [← Option.isSome_iff_exists]
  simp [lastDeclared?, Declares]

theorem ClassNode.text_kindOf (node : ClassNode) (declared : MethodDeclaration) :
    (node.kindOf declared).text = if node.isInterface then "INTERFACE"
      else if declared.isAbstract then "ABSTRACT" else "IMPLEMENTATION" := by
  unfold kindOf
  cases node.isInterface <;> cases declared.isAbstract <;> rfl

/-- **The kinds of a build are exact.**  A method of the registry has a kind exactly when the first
class of its name declares it and it is what that class's own reference to the selector names; so
what is known from calls only, from later classes of a name or under another attribution has none.
The kind says whether that class is an interface, and else whether the last declaration of the
selector in it has a body.  Nothing else is noted about any method, and what first classes declare
is in the registry. -/
theorem kinds_are_exact {resolver : ArtifactResolver} {analyses : List ArtifactAnalysis}
    {built : Logged Package} (success : Package.ofAnalyses resolver analyses = .ok built) :
    let placements := resolver.placements analyses
    let methods := built.value.methods
    (∀ id method, methods.get? id = some method →
      (method.kind.isSome = true ↔
        ∃ first, Placement.first? placements method.identity.owner = some first ∧
          first.node.Declares method.identity.symbol ∧
          method.identity =
            resolver.identify (first.node.methodReference method.identity.symbol)) ∧
      (∀ first declared, Placement.first? placements method.identity.owner = some first →
        first.node.lastDeclared? method.identity.symbol = some declared →
        method.identity = resolver.identify (first.node.methodReference method.identity.symbol) →
        method.kind = some (if first.node.isInterface then "INTERFACE"
          else if declared.isAbstract then "ABSTRACT" else "IMPLEMENTATION")) ∧
      (∀ key, key ≠ Metadata.kindKey → method.metadata.get? key = none)) ∧
    (∀ name first selector, Placement.first? placements name = some first →
      first.node.Declares selector →
      ∃ id method, methods.get? id = some method ∧
        method.identity = resolver.identify (first.node.methodReference selector)) := by
  intro placements methods
  refine ⟨fun id method there => ?_, ?_⟩
  · obtain ⟨noted, others⟩ := Package.kind_ofAnalyses success there
    refine ⟨⟨?_, ?_⟩, ?_, others⟩
    · intro some_
      rw [noted, Option.isSome_map] at some_
      obtain ⟨kind, found⟩ := Option.isSome_iff_exists.mp some_
      obtain ⟨first, earliest, own, declared, last, -⟩ := kind?_eq_some_iff.mp found
      exact ⟨first, earliest, ClassNode.declares_iff.mpr ⟨declared, last⟩, own⟩
    · rintro ⟨first, earliest, declares, own⟩
      obtain ⟨declared, last⟩ := ClassNode.declares_iff.mp declares
      rw [noted, kind?_eq_some_iff.mpr ⟨first, earliest, own, declared, last, rfl⟩]
      rfl
    · intro first declared earliest last own
      rw [noted, kind?_eq_some_iff.mpr ⟨first, earliest, own, declared, last, rfl⟩]
      exact congrArg some (first.node.text_kindOf declared)
  · intro name first selector earliest declares
    obtain ⟨declared, last⟩ := ClassNode.declares_iff.mp declares
    obtain ⟨-, rfl⟩ := Placement.mem_names_of_first? earliest
    let identity := resolver.identify (first.node.methodReference selector)
    have found : Placement.kind? placements identity = some (first.node.kindOf declared) :=
      kind?_eq_some_iff.mpr ⟨first, earliest, rfl, declared, last, rfl⟩
    have noted := Package.noted_ofAnalyses success identity
    rw [found] at noted
    obtain ⟨id, method, there, same, -⟩ := MethodRegistry.exists_of_noted noted
    exact ⟨id, method, there, same⟩

/-- A class that declares a method twice, at last without a body. -/
def redeclaringClass : ClassNode :=
  { reference := ⟨"La/A;", .application⟩
    methods := [{ selector := "run()V", isStatic := true },
      { selector := "run()V", isAbstract := true }] }

/-- Another class of that name, with another method. -/
def stoppingClass : ClassNode :=
  { reference := ⟨"a.A", .application⟩, methods := [{ selector := "stop()V" }] }

/-- An artifact with both classes, and a call from the method of the one, in a foreign scope, to the
method of the other. -/
def reopenedArtifact : CompleteAnalysis :=
  ⟨⟨"g", "a", "1"⟩, ⟨[redeclaringClass, stoppingClass]⟩,
    ⟨[⟨⟨⟨"a.A", .extension⟩, "run()V"⟩, ⟨⟨"a.A", .application⟩, "stop()V"⟩, .virtual⟩]⟩⟩

/-- The method has the kind of its last declaration; its namesake in the foreign scope and the
method of the other class, which the call has brought, have none. -/
theorem kinds_are_exact_reopened :
    let resolver := ArtifactResolver.owning "g:a:1"
    ∃ built declared foreign skipped,
      Package.ofAnalyses resolver [reopenedArtifact.analysis] = .ok built ∧
      built.value.methods.methods = [declared, foreign, skipped] ∧
      declared.identity = ⟨"a.A", "run()V", some "g:a:1"⟩ ∧ declared.kind = some "ABSTRACT" ∧
      foreign.identity = ⟨"a.A", "run()V", none⟩ ∧ foreign.kind = none ∧
      skipped.identity = ⟨"a.A", "stop()V", some "g:a:1"⟩ ∧ skipped.kind = none := by
  intro resolver
  obtain ⟨built, success, result⟩ := Package.ofAnalyses_complete resolver [reopenedArtifact]
  have identities : built.value.methods.identities =
      [⟨"a.A", "run()V", some "g:a:1"⟩, ⟨"a.A", "run()V", none⟩,
        ⟨"a.A", "stop()V", some "g:a:1"⟩] := by
    rw [result]
    decide
  obtain ⟨declared, others, listed, own, rest⟩ := List.map_eq_cons_iff.mp identities
  obtain ⟨foreign, others, rfl, abroad, rest⟩ := List.map_eq_cons_iff.mp rest
  obtain ⟨skipped, others, rfl, later, rest⟩ := List.map_eq_cons_iff.mp rest
  obtain rfl := List.map_eq_nil_iff.mp rest
  have there (place : Nat) (method : Method) (found : built.value.methods.methods[place]? =
      some method) : built.value.methods.get? ⟨place⟩ = some method := found
  rw [listed] at there
  let reopening : Placement := ⟨resolver, reopenedArtifact.hierarchy, redeclaringClass⟩
  have met : resolver.placements ([reopenedArtifact].map CompleteAnalysis.analysis) =
      [reopening, ⟨resolver, reopenedArtifact.hierarchy, stoppingClass⟩] := rfl
  have first : Placement.first? (resolver.placements
      ([reopenedArtifact].map CompleteAnalysis.analysis)) "a.A" = some reopening := by
    rw [met, Placement.first?_cons, if_pos (by decide)]
  obtain ⟨kinds, -⟩ := kinds_are_exact success
  refine ⟨built, declared, foreign, skipped, success, listed, own, ?_, abroad, ?_, later, ?_⟩
  · obtain ⟨-, noted, -⟩ := kinds _ _ (there 0 declared rfl)
    rw [own] at noted
    have last : redeclaringClass.lastDeclared? "run()V" =
        some { selector := "run()V", isAbstract := true } := by decide
    have reference : (⟨"a.A", "run()V", some "g:a:1"⟩ : MethodIdentity) =
        resolver.identify (redeclaringClass.methodReference "run()V") := by decide
    exact noted reopening _ first last reference
  · obtain ⟨exactly, -⟩ := kinds _ _ (there 1 foreign rfl)
    rw [abroad] at exactly
    rw [← Option.not_isSome_iff_eq_none, exactly]
    rintro ⟨earliest, found, -, reference⟩
    obtain rfl : reopening = earliest := Option.some.inj (first.symm.trans found)
    have apart : (⟨"a.A", "run()V", none⟩ : MethodIdentity) ≠
        resolver.identify (redeclaringClass.methodReference "run()V") := by decide
    exact apart reference
  · obtain ⟨exactly, -⟩ := kinds _ _ (there 2 skipped rfl)
    rw [later] at exactly
    rw [← Option.not_isSome_iff_eq_none, exactly]
    rintro ⟨earliest, found, ⟨declared, listed, same⟩, -⟩
    obtain rfl : reopening = earliest := Option.some.inj (first.symm.trans found)
    have only : ∀ declared ∈ redeclaringClass.methods, declared.selector ≠ "stop()V" := by decide
    exact only declared listed same

end ProgramModel
