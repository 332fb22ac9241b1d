/-
# ProgramModel.Proofs.Bundles -- a bundle that was loaded survives being saved

Scopes and dispatch kinds are read in many spellings and written in one, so a format of
theirs is not lawful: a scope of the tag `application` that nobody read is written as a tag
that means something else.  What can be *read* is better behaved.  A value is `Stable` when
it is what its written form means, and a format `Settles` when every document of it means a
stable value: reading has then put everything into its normal form.

A format put together from formats that settle settles as well, down to the format of
bundles (`Format.settles_bundle`).  So a bundle that was loaded, from JSON or from YAML, is
read back from the text that it is saved as (`bundle_survives_saving`).
-/
import ProgramModel.Load
import ProgramModel.Proofs.Formats

namespace ProgramModel

set_option autoImplicit false

/-- **A scope is written as a tag that is read as that scope.**  A tag that was kept has no other
meaning, so it is kept again. -/
theorem Scope.ofText_text_ofText (tag : String) :
    Scope.ofText (Scope.ofText tag).text = Scope.ofText tag := by
  cases read : Scope.ofText tag with
  | application => decide
  | primordial => decide
  | extension => decide
  | other kept =>
      have same : kept = tag := by
        unfold Scope.ofText at read
        split at read <;> cases read
        rfl
      subst same
      exact read

namespace Format

variable {α : Type} {format : Format α}

/-- What a document stands for, whatever there is to report about it. -/
def meaning (format : Format α) (document : format.schema.Value) : α :=
  (format.ofValue document).value

/-- The value is what its own written form stands for. -/
def Stable (format : Format α) (value : α) : Prop :=
  format.meaning (format.toValue value) = value

/-- What is written can be told apart, and whatever was read is written as what it is. -/
structure Settles (format : Format α) : Prop where
  definite : format.schema.Definite
  stable : ∀ document, format.Stable (format.meaning document)

/-- **What was read is read again from its text.** -/
theorem Settles.ofJson_chars (settles : format.Settles) (document : format.schema.Value)
    (layout : Json.Layout) :
    ∃ again, format.ofJson (((format.toJson (format.meaning document)).chars layout).map .char) =
      .ok again ∧ again.value = format.meaning document := by
  have read := Schema.ofJson_chars settles.definite
    (format.toValue (format.meaning document)) layout
  refine ⟨format.ofValue (format.toValue (format.meaning document)), ?_, settles.stable document⟩
  rw [Format.ofJson, Format.toJson, read]
  rfl

/-! ## Parts -/

theorem Lawful.stable (lawful : format.Lawful) (value : α) : format.Stable value :=
  congrArg Logged.value (lawful.means value)

theorem Lawful.settles (lawful : format.Lawful) : format.Settles where
  definite := lawful.definite
  stable _ := lawful.stable _

theorem meaning_list (documents : List format.schema.Value) :
    (list format).meaning documents = documents.map format.meaning := by
  show (List.mapM format.ofValue documents).value = _
  induction documents with
  | nil => rfl
  | cons document documents ih =>
      rw [List.mapM_cons, Logged.value_bind, Logged.value_bind, ih]
      rfl

theorem stable_list {values : List α} (each : ∀ value ∈ values, format.Stable value) :
    (list format).Stable values :=
  calc (list format).meaning ((list format).toValue values)
      = (values.map format.toValue).map format.meaning := meaning_list _
    _ = values.map (fun value => format.meaning (format.toValue value)) := List.map_map
    _ = values.map id := List.map_congr_left each
    _ = values := List.map_id values

theorem settles_list (settles : format.Settles) : (list format).Settles where
  definite := settles.definite
  stable documents := by
    have read : (list format).meaning documents = List.map format.meaning documents :=
      meaning_list documents
    rw [read]
    refine stable_list fun value among => ?_
    obtain ⟨document, -, rfl⟩ := List.mem_map.mp among
    exact settles.stable document

theorem settles_optional (settles : format.Settles) (single : format.schema.isOptional = false) :
    (optional format).Settles where
  definite := ⟨single, settles.definite⟩
  stable document := by
    cases document with
    | none => rfl
    | some document => exact congrArg some (settles.stable document)

/-! ## Scopes and dispatch kinds -/

theorem meaning_scope (tag : String) : scope.meaning tag = Scope.ofText tag :=
  Logged.value_pure (Scope.ofText tag)

theorem stable_scope (kept : Scope) (again : Scope.ofText kept.text = kept) : scope.Stable kept :=
  (meaning_scope kept.text).trans again

theorem settles_scope : scope.Settles where
  definite := trivial
  stable tag := by
    rw [meaning_scope tag]
    exact stable_scope (Scope.ofText tag) (Scope.ofText_text_ofText tag)

theorem stable_dispatch (kind : DispatchKind) : dispatch.Stable kind := by
  cases kind <;> rfl

theorem settles_dispatch : dispatch.Settles where
  definite := trivial
  stable _ := stable_dispatch _

/-- **A dispatch kind is read back from its spelling.**  The spelling `unknown` names none, so it
means the unknown kind, and that is reported. -/
theorem meaning_dispatch_text (kind : DispatchKind) : dispatch.meaning kind.text = kind :=
  stable_dispatch kind

/-! ## The parts of bundles

A record is stable when its parts are.  This is said of all values first: of a record that was
read, the parts are what their documents mean, which is better left as it stands. -/

theorem stable_typeReference (name : String) {origin : Scope} (kept : scope.Stable origin) :
    typeReference.Stable ⟨name, origin⟩ :=
  congrArg (TypeReference.mk name) kept

theorem settles_typeReference : typeReference.Settles where
  definite := by
    have tag := settles_scope.definite
    simp [typeReference, Schema.Definite, Fields.Definite, Fields.keys, tag]
  stable := by
    rintro ⟨name, tag, -⟩
    exact stable_typeReference name (settles_scope.stable tag)

theorem stable_methodReference {type : TypeReference} (selector : String)
    (kept : typeReference.Stable type) : methodReference.Stable ⟨type, selector⟩ :=
  congrArg (MethodReference.mk · selector) kept

theorem settles_methodReference : methodReference.Settles where
  definite := by
    have type := settles_typeReference.definite
    simp [methodReference, Schema.Definite, Fields.Definite, Fields.keys, type]
  stable := by
    rintro ⟨type, selector, -⟩
    exact stable_methodReference selector (settles_typeReference.stable type)

theorem lawful_modifiers : modifiers.Lawful where
  definite := by simp [modifiers, Schema.Definite, Fields.Definite, Fields.keys]
  means _ := rfl

theorem lawful_methodDeclaration : methodDeclaration.Lawful where
  definite := by simp [methodDeclaration, Schema.Definite, Fields.Definite, Fields.keys]
  means _ := rfl

theorem stable_classNode {reference : TypeReference} {superclass : Option TypeReference}
    {interfaces : List TypeReference} (methods : List MethodDeclaration) (flags : ClassModifiers)
    (self : typeReference.Stable reference) (above : (optional typeReference).Stable superclass)
    (beside : (list typeReference).Stable interfaces) :
    classNode.Stable ⟨reference, superclass, interfaces, methods, flags⟩ :=
  (ClassNode.mk.injEq ..).mpr ⟨self, above, beside,
    stable_list fun method _ => lawful_methodDeclaration.stable method,
    lawful_modifiers.stable flags⟩

theorem settles_classNode : classNode.Settles where
  definite := by
    have type := settles_typeReference.definite
    have superclass := (settles_optional settles_typeReference rfl).definite
    have interfaces := (settles_list settles_typeReference).definite
    have methods := (settles_list lawful_methodDeclaration.settles).definite
    have flags := lawful_modifiers.definite
    simp [classNode, Schema.Definite, Fields.Definite, Fields.keys, type, superclass, interfaces,
      methods, flags]
  stable := by
    rintro ⟨reference, superclass, interfaces, methods, flags, -⟩
    have self := settles_typeReference.stable reference
    have above := (settles_optional settles_typeReference rfl).stable superclass
    have beside := (settles_list settles_typeReference).stable interfaces
    exact stable_classNode ((list methodDeclaration).meaning methods) (modifiers.meaning flags)
      self above beside

theorem settles_classHierarchy : classHierarchy.Settles where
  definite := by
    have classes := (settles_list settles_classNode).definite
    simp [classHierarchy, Schema.Definite, Fields.Definite, Fields.keys, classes]
  stable := by
    rintro ⟨classes, -⟩
    have each := (settles_list settles_classNode).stable classes
    exact congrArg ClassHierarchy.mk each

theorem stable_callEdge {caller callee : MethodReference} {kind : DispatchKind}
    (start : methodReference.Stable caller) (target : methodReference.Stable callee)
    (reported : dispatch.Stable kind) : callEdge.Stable ⟨caller, callee, kind⟩ :=
  -- The steps are taken by their lemmas: reduction would go into how a kind is read.
  calc callEdge.meaning (callEdge.toValue ⟨caller, callee, kind⟩)
      = ⟨methodReference.meaning (methodReference.toValue caller),
          methodReference.meaning (methodReference.toValue callee),
          dispatch.meaning (dispatch.toValue kind)⟩ := by
        simp only [meaning, callEdge, Logged.value_bind, Logged.value_pure]
    _ = ⟨caller, callee, kind⟩ := (CallEdge.mk.injEq ..).mpr ⟨start, target, reported⟩

theorem settles_callEdge : callEdge.Settles where
  definite := by
    have ends := settles_methodReference.definite
    have kind := settles_dispatch.definite
    simp [callEdge, Schema.Definite, Fields.Definite, Fields.keys, ends, kind]
  stable := by
    rintro ⟨caller, callee, kind, -⟩
    have start := settles_methodReference.stable caller
    have target := settles_methodReference.stable callee
    exact stable_callEdge start target (settles_dispatch.stable kind)

theorem settles_callGraph : callGraph.Settles where
  definite := by
    have edges := (settles_list settles_callEdge).definite
    simp [callGraph, Schema.Definite, Fields.Definite, Fields.keys, edges]
  stable := by
    rintro ⟨edges, -⟩
    have each := (settles_list settles_callEdge).stable edges
    exact congrArg CallGraph.mk each

theorem stable_analysis (record : ArtifactRecord) {hierarchy : Option ClassHierarchy}
    {graph : Option CallGraph} (classes : (optional classHierarchy).Stable hierarchy)
    (calls : (optional callGraph).Stable graph) : analysis.Stable ⟨record, hierarchy, graph⟩ :=
  (ArtifactAnalysis.mk.injEq ..).mpr ⟨lawful_artifact.stable record, classes, calls⟩

theorem settles_analysis : analysis.Settles where
  definite := by
    have record := lawful_artifact.definite
    have hierarchy := (settles_optional settles_classHierarchy rfl).definite
    have graph := (settles_optional settles_callGraph rfl).definite
    simp [analysis, Schema.Definite, Fields.Definite, Fields.keys, record, hierarchy, graph]
  stable := by
    rintro ⟨record, hierarchy, graph, -⟩
    have classes := (settles_optional settles_classHierarchy rfl).stable hierarchy
    have calls := (settles_optional settles_callGraph rfl).stable graph
    exact stable_analysis (artifact.meaning record) classes calls

theorem stable_bundle (classArtifacts : SortedMap String String) {analyses : List ArtifactAnalysis}
    (each : (list analysis).Stable analyses) : bundle.Stable ⟨classArtifacts, analyses⟩ :=
  (AnalysisBundle.mk.injEq ..).mpr ⟨SortedMap.ofList_toList classArtifacts, each⟩

/-- **A bundle that was read is in its normal form.** -/
theorem settles_bundle : bundle.Settles where
  definite := by
    have analyses := (settles_list settles_analysis).definite
    simp [bundle, table, Schema.Definite, Fields.Definite, Fields.keys, analyses]
  stable := by
    rintro ⟨entries, analyses, -⟩
    have each := (settles_list settles_analysis).stable analyses
    exact stable_bundle (SortedMap.ofList entries) each

end Format

/-! ## Bundles -/

namespace AnalysisBundle

variable {text : List Char} {loaded : Logged AnalysisBundle}

/-- The validation of a bundle hands on that bundle. -/
theorem validate_eq_ok {bundle valid : AnalysisBundle} (goes : bundle.validate = .ok valid) :
    valid = bundle := by
  unfold validate at goes
  split at goes
  · cases goes
  · cases goes
    rfl

/-- A bundle that was validated is one that can be validated again. -/
theorem validated_eq_ok {bundle : Logged AnalysisBundle} (goes : validated bundle = .ok loaded) :
    loaded = bundle ∧ loaded.value.validate = .ok loaded.value := by
  unfold validated at goes
  cases valid : bundle.value.validate with
  | error fault =>
      rw [valid] at goes
      cases goes
  | ok value =>
      have same := validate_eq_ok valid
      subst same
      rw [valid] at goes
      cases goes
      exact ⟨rfl, valid⟩

theorem validated_of_valid {bundle : Logged AnalysisBundle}
    (valid : bundle.value.validate = .ok bundle.value) : validated bundle = .ok bundle := by
  rw [validated, valid]
  rfl

/-- A bundle read from JSON is what some document stands for, and is valid. -/
theorem ofJson_eq_ok (goes : ofJson text = .ok loaded) :
    ∃ document, loaded.value = Format.bundle.meaning document ∧
      loaded.value.validate = .ok loaded.value := by
  unfold ofJson Format.ofJson at goes
  cases read : Format.bundle.schema.ofJson (text.map .char) with
  | error fault =>
      rw [read] at goes
      cases goes
  | ok document =>
      rw [read] at goes
      obtain ⟨rfl, valid⟩ := validated_eq_ok goes
      exact ⟨document, rfl, valid⟩

/-- So is a bundle read from YAML. -/
theorem ofYaml_eq_ok (goes : ofYaml text = .ok loaded) :
    ∃ document, loaded.value = Format.bundle.meaning document ∧
      loaded.value.validate = .ok loaded.value := by
  unfold ofYaml Format.ofYaml? at goes
  cases read : Format.bundle.schema.ofYaml text with
  | none =>
      rw [read] at goes
      cases goes
  | some document =>
      rw [read] at goes
      obtain ⟨rfl, valid⟩ := validated_eq_ok goes
      exact ⟨document, rfl, valid⟩

/-- **What a document stands for is loaded from its text**, if it is valid. -/
theorem ofJson_toJson_meaning (document : Format.bundle.schema.Value)
    (valid : (Format.bundle.meaning document).validate = .ok (Format.bundle.meaning document))
    (layout : Json.Layout) :
    ∃ again, ofJson ((Format.bundle.toJson (Format.bundle.meaning document)).chars layout) =
      .ok again ∧ again.value = Format.bundle.meaning document := by
  obtain ⟨again, read, same⟩ := Format.settles_bundle.ofJson_chars document layout
  have validAgain : again.value.validate = .ok again.value := by rw [same, valid]
  refine ⟨again, ?_, same⟩
  rw [ofJson, read]
  exact validated_of_valid validAgain

/-- A valid bundle in its normal form is loaded from the text that it is saved as. -/
theorem ofJson_toJson {bundle : AnalysisBundle} (stable : Format.bundle.Stable bundle)
    (valid : bundle.validate = .ok bundle) (layout : Json.Layout) :
    ∃ again, ofJson ((Format.bundle.toJson bundle).chars layout) = .ok again ∧
      again.value = bundle := by
  have means : Format.bundle.meaning (Format.bundle.toValue bundle) = bundle := stable
  have loads := ofJson_toJson_meaning (Format.bundle.toValue bundle)
  rw [means] at loads
  exact loads valid layout

end AnalysisBundle

/-- **A bundle that was loaded survives being saved.**  Whichever text it was loaded from, it is
loaded again, as the same bundle, from the text that it is saved as in either layout.  The halves
that an analysis lacks are then still missing, a scope is still the one that was read, and so is a
dispatch kind, also where the spelling named none and the kind is unknown. -/
theorem bundle_survives_saving (layout : Json.Layout) :
    (∀ text loaded,
      (AnalysisBundle.ofJson text = .ok loaded ∨ AnalysisBundle.ofYaml text = .ok loaded) →
      ∃ again, AnalysisBundle.ofJson ((Format.bundle.toJson loaded.value).chars layout) =
        .ok again ∧ again.value = loaded.value) ∧
    (∀ tag, Scope.ofText (Scope.ofText tag).text = Scope.ofText tag) ∧
    (∀ spelling, Format.dispatch.meaning (Format.dispatch.meaning spelling).text =
      Format.dispatch.meaning spelling) := by
  refine ⟨?_, Scope.ofText_text_ofText, fun _ => Format.meaning_dispatch_text _⟩
  intro text loaded loads
  have read : ∃ document, loaded.value = Format.bundle.meaning document ∧
      loaded.value.validate = .ok loaded.value := by
    rcases loads with json | yaml
    · exact AnalysisBundle.ofJson_eq_ok json
    · exact AnalysisBundle.ofYaml_eq_ok yaml
  obtain ⟨document, meant, valid⟩ := read
  rw [meant] at valid ⊢
  exact AnalysisBundle.ofJson_toJson_meaning document valid layout

/-- A method as it stands in a bundle, with its type's scope spelled in some way. -/
def spelledMethod (type scope selector : String) : Json :=
  .object [
    ("declaringClass", .object [("name", .text type), ("scope", .text scope)]),
    ("selector", .text selector)]

/-- A bundle in careless spelling: a scope with a blank and a dotless `ı`, a scope whose tag means
nothing, a dispatch that names no kind, and an analysis without a hierarchy. -/
def carelessBundle : List Char :=
  Json.chars .indented <| .object [
    ("classArtifacts", .object [("LMain;", .text "g:a:1")]),
    ("analyses", .array [.object [
      ("artifact", .object [("version", .text "1"), ("group", .text "g"), ("name", .text "a")]),
      ("callGraph", .object [("edges", .array [.object [
        ("dispatch", .text "invokeDynamic"),
        ("caller", spelledMethod "LMain;" " applıcation" "main()V"),
        ("callee", spelledMethod "A" " Synthetic" "f()V")]])])]])]

/-- What it means. -/
def carefulBundle : AnalysisBundle where
  classArtifacts := SortedMap.ofList [("LMain;", "g:a:1")]
  analyses := [{
    artifact := ⟨"g", "a", "1"⟩
    callGraph := some ⟨[{
      caller := ⟨⟨"LMain;", .application⟩, "main()V"⟩
      callee := ⟨⟨"A", .other " Synthetic"⟩, "f()V"⟩
      dispatch := .unknown }]⟩ }]

/-- The bundle is loaded as what it means, and again from what is saved of it. -/
theorem bundle_survives_saving_careless :
    ∃ loaded again, AnalysisBundle.ofJson carelessBundle = .ok loaded ∧
      loaded.value = carefulBundle ∧
      AnalysisBundle.ofJson ((Format.bundle.toJson carefulBundle).chars .compact) = .ok again ∧
      again.value = carefulBundle := by
  have means : (AnalysisBundle.ofJson carelessBundle).toOption.map Logged.value =
      some carefulBundle := by
    decide +kernel
  cases loads : AnalysisBundle.ofJson carelessBundle with
  | error fault =>
      rw [loads] at means
      cases means
  | ok loaded =>
      rw [loads] at means
      have same : loaded.value = carefulBundle := Option.some.inj means
      obtain ⟨again, read, kept⟩ :=
        (bundle_survives_saving .compact).1 carelessBundle loaded (.inl loads)
      rw [same] at read kept
      exact ⟨loaded, again, rfl, same, read, kept⟩

end ProgramModel
