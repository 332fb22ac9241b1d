/-
# ProgramModel.Proofs.DotReading -- the text of a graph can be read back

A reader of graphs that looks at no graph: it scans quoted texts, where a backslash stands
before a quote or another backslash and nowhere else, takes the key of an attribute to reach
up to the first equals sign with a quote behind it, and otherwise expects the marks of the
language.  It refuses what is not written exactly so.

Quoting is two replacements, that of the backslash first.  What the reader undoes is one pass
over the characters, and the two are the same (`quoted_eq`).

The contract of a reader (`Reads`) is an equivalence: it gives a value and what stands behind
if and only if the text is that value as written, followed by that, and the value is one that
it can tell.  Each part has its contract from those of its own parts, down to a graph's
(`readGraph_eq_some_iff`).  So no text is read as anything but what was written, whatever
characters stand in ids, names, values and keys, as long as no key runs into its own value:
a key that holds an equals sign with a quote behind it is not legible.
-/
import ProgramModel.View.Dot

namespace ProgramModel.Dot

set_option autoImplicit false

/-! ## Readers and their contracts -/

/-- Reads a value off the front of a text, and gives it with the rest of the text. -/
abbrev Reader (α : Type) := List Char → Option (α × List Char)

variable {α : Type}

/-- The reader gives a value exactly where that is written, and the rest is what stands behind. -/
def Reads (reader : Reader α) (write : α → List Char) (legible : α → Prop) : Prop :=
  ∀ text value rest,
    reader text = some (value, rest) ↔ legible value ∧ text = write value ++ rest

/-- Legible values that are written alike are equal. -/
theorem Reads.injective {reader : Reader α} {write : α → List Char} {legible : α → Prop}
    (reads : Reads reader write legible) {one other : α} (tells : legible one)
    (tells' : legible other) (same : write one = write other) : one = other := by
  have first : reader (write one) = some (one, []) :=
    (reads _ _ _).mpr ⟨tells, (List.append_nil _).symm⟩
  have second : reader (write one) = some (other, []) :=
    (reads _ _ _).mpr ⟨tells', same.trans (List.append_nil _).symm⟩
  exact congrArg Prod.fst (Option.some.inj (first.symm.trans second))

/-- The text behind a word, if it starts with the word. -/
def skip (word text : List Char) : Option (List Char) :=
  if word.isPrefixOf text then some (text.drop word.length) else none

theorem skip_eq_some {word text rest : List Char} :
    skip word text = some rest ↔ text = word ++ rest := by
  unfold skip
  split
  · rename_i front
    obtain ⟨behind, rfl⟩ := List.isPrefixOf_iff_prefix.mp front
    rw [List.drop_left, Option.some_inj, List.append_cancel_left_eq]
  · rename_i other
    constructor
    · intro found
      cases found
    · rintro rfl
      exact absurd (List.isPrefixOf_iff_prefix.mpr (List.prefix_append word rest)) other

/-! ## Quoted texts -/

/-- One character of a text that stands between quotes. -/
def quotedChar (c : Char) : List Char := if c = '\\' ∨ c = '"' then ['\\', c] else [c]

theorem escape_escape (text : List Char) :
    replace '"' ['\\', '"'] (replace '\\' ['\\', '\\'] text) = text.flatMap quotedChar := by
  induction text with
  | nil => rfl
  | cons c text ih =>
      unfold replace at ih ⊢
      rw [List.flatMap_cons, List.flatMap_append, ih, List.flatMap_cons]
      by_cases backslash : c = '\\'
      · subst backslash
        rfl
      · by_cases quote : c = '"'
        · subst quote
          rfl
        · simp [quotedChar, backslash, quote]

/-- **The two replacements of quoting are one pass.**  The first puts in no quote, and the second
leaves every backslash as it is. -/
theorem quoted_eq (text : String) :
    quoted text = '"' :: text.toList.flatMap quotedChar ++ ['"'] := by
  rw [quoted, escape_escape]

/-- The characters up to the closing quote.  Only a quote and a backslash are escaped. -/
def readInside : Reader (List Char)
  | [] => none
  | '"' :: rest => some ([], rest)
  | ['\\'] => none
  | '\\' :: c :: rest =>
      if c = '\\' ∨ c = '"' then
        (readInside rest).map fun (inside, behind) => (c :: inside, behind)
      else none
  | c :: rest => (readInside rest).map fun (inside, behind) => (c :: inside, behind)

/-- A text between quotes. -/
def readText : Reader String := fun text => do
  let (inside, rest) ← readInside (← skip ['"'] text)
  some (String.ofList inside, rest)

/-- What is read up to a closing quote is what was written. -/
theorem eq_of_readInside {text inside rest : List Char}
    (read : readInside text = some (inside, rest)) :
    text = inside.flatMap quotedChar ++ '"' :: rest := by
  fun_induction readInside text generalizing inside with
  | case1 => cases read
  | case2 behind =>
      cases read
      rfl
  | case3 => cases read
  | case4 c behind special ih =>
      obtain ⟨⟨inner, last⟩, found, same⟩ := Option.map_eq_some_iff.mp read
      cases same
      rw [ih found, List.flatMap_cons, quotedChar, if_pos special]
      rfl
  | case5 => cases read
  | case6 c behind quote lone escape ih =>
      obtain ⟨⟨inner, last⟩, found, same⟩ := Option.map_eq_some_iff.mp read
      cases same
      have plain : ¬(c = '\\' ∨ c = '"') := by
        rintro (rfl | rfl)
        · cases behind with
          | nil => exact lone rfl rfl
          | cons d behind => exact escape d behind rfl rfl
        · exact quote rfl
      rw [ih found, List.flatMap_cons, quotedChar, if_neg plain]
      rfl

theorem readInside_append (inside rest : List Char) :
    readInside (inside.flatMap quotedChar ++ '"' :: rest) = some (inside, rest) := by
  induction inside with
  | nil => rfl
  | cons c inside ih =>
      rw [List.flatMap_cons, List.append_assoc]
      by_cases special : c = '\\' ∨ c = '"'
      · rw [quotedChar, if_pos special]
        simp [readInside, special, ih]
      · rw [quotedChar, if_neg special]
        rw [not_or] at special
        simp [readInside, special, ih]

/-- **A quoted text is read back, whatever characters it has.** -/
theorem readText_reads : Reads readText quoted fun _ => True := by
  intro text value rest
  simp only [readText, Option.bind_eq_bind, Option.bind_eq_some_iff, Prod.exists,
    skip_eq_some, Option.some_inj, Prod.mk.injEq, true_and]
  constructor
  · rintro ⟨_, rfl, inside, _, read, rfl, rfl⟩
    rw [eq_of_readInside read, quoted_eq]
    simp
  · rintro rfl
    refine ⟨_, ?_, value.toList, rest, readInside_append value.toList rest, ?_, rfl⟩
    · simp [quoted_eq]
    · simp

/-! ## Attributes -/

/-- The characters up to the first equals sign that has a quote behind it. -/
def readKey : Reader (List Char)
  | [] => none
  | c :: rest =>
      if c = '=' ∧ rest.head? = some '"' then some ([], rest)
      else (readKey rest).map fun (key, behind) => (c :: key, behind)

def readAttribute : Reader Attribute := fun text => do
  let (key, rest) ← readKey text
  let (value, rest) ← readText rest
  some (⟨String.ofList key, value⟩, rest)

/-- The key does not run into a value that stands behind it. -/
def Clear (key : String) : Prop := ¬['=', '"'] <:+: key.toList

instance (key : String) : Decidable (Clear key) :=
  inferInstanceAs (Decidable (¬['=', '"'] <:+: key.toList))

/-- A key runs into its value at its first character, or behind that. -/
theorem runsIn_cons {c : Char} {key : List Char} :
    ['=', '"'] <:+: c :: key ↔ (c = '=' ∧ key.head? = some '"') ∨ ['=', '"'] <:+: key := by
  rw [List.infix_cons_iff, List.cons_prefix_cons, List.singleton_prefix_iff_head?_eq_some,
    eq_comm (a := '=')]

theorem head?_key_append (key rest : List Char) :
    (key ++ '=' :: rest).head? = some '"' ↔ key.head? = some '"' := by
  cases key with
  | nil => simp
  | cons c key => simp

theorem readKey_eq_some {text key rest : List Char} :
    readKey text = some (key, rest) ↔
      (¬['=', '"'] <:+: key ∧ rest.head? = some '"') ∧ text = key ++ '=' :: rest := by
  constructor
  · intro read
    fun_induction readKey text generalizing key with
    | case1 => cases read
    | case2 c behind ends =>
        cases read
        exact ⟨⟨by simp, ends.2⟩, by rw [ends.1]; rfl⟩
    | case3 c behind goes ih =>
        obtain ⟨⟨inner, last⟩, found, same⟩ := Option.map_eq_some_iff.mp read
        cases same
        obtain ⟨⟨clear, ends⟩, rfl⟩ := ih found
        rw [head?_key_append] at goes
        refine ⟨⟨?_, ends⟩, rfl⟩
        rw [runsIn_cons, not_or]
        exact ⟨goes, clear⟩
  · rintro ⟨⟨clear, ends⟩, rfl⟩
    induction key with
    | nil => rw [List.nil_append, readKey, if_pos ⟨rfl, ends⟩]
    | cons c key ih =>
        rw [runsIn_cons, ← head?_key_append key rest, not_or] at clear
        rw [List.cons_append, readKey, if_neg clear.1, ih clear.2]
        rfl

/-- **An attribute is read back if and only if its key is clear.** -/
theorem readAttribute_reads :
    Reads readAttribute Attribute.chars fun item => Clear item.key := by
  intro text item rest
  obtain ⟨key, value⟩ := item
  simp only [readAttribute, Option.bind_eq_bind, Option.bind_eq_some_iff, Prod.exists,
    readKey_eq_some, readText_reads _ _ _, Option.some_inj, Prod.mk.injEq, Attribute.mk.injEq]
  constructor
  · rintro ⟨front, _, ⟨⟨clear, -⟩, rfl⟩, _, _, ⟨-, rfl⟩, ⟨rfl, rfl⟩, rfl⟩
    refine ⟨?_, ?_⟩
    · simpa [Clear] using clear
    · simp [Attribute.chars]
  · rintro ⟨clear, rfl⟩
    refine ⟨key.toList, quoted value ++ rest, ⟨⟨clear, rfl⟩, ?_⟩, value, rest, ⟨trivial, rfl⟩,
      ⟨String.ofList_toList, rfl⟩, rfl⟩
    simp [Attribute.chars]

example : Clear "a=b, c=" ∧ Clear "\"" ∧ ¬Clear "note=\"x\", since" := by decide +kernel

/-! ## Sequences -/

/-- The items before a closing character. -/
def readMany (close : Char) (item : Reader α) (text : List Char) : Option (List α × List Char) :=
  match text with
  | [] => none
  | c :: rest =>
      if c = close then some ([], rest)
      else
        match item (c :: rest) with
        | none => none
        | some (value, after) =>
            -- An item takes at least a character, or nothing would come to an end.
            if after.length ≤ rest.length then
              (readMany close item after).map fun (values, behind) => (value :: values, behind)
            else none
termination_by text.length

/-- **What holds of one item holds of a sequence of them**, if no item starts with the closing
character. -/
theorem readMany_reads {item : Reader α} {write : α → List Char} {legible : α → Prop}
    (reads : Reads item write legible) (close : Char)
    (starts : ∀ value, ∃ c rest, write value = c :: rest ∧ c ≠ close) :
    Reads (readMany close item) (fun values => values.flatMap write ++ [close])
      fun values => ∀ value ∈ values, legible value := by
  intro text values rest
  constructor
  · intro read
    fun_induction readMany close item text generalizing values rest with
    | case1 => cases read
    | case2 =>
        cases read
        simp
    | case3 => cases read
    | case4 c behind other value after found shorter ih =>
        obtain ⟨⟨inner, last⟩, goes, same⟩ := Option.map_eq_some_iff.mp read
        cases same
        obtain ⟨tells, written⟩ := (reads _ _ _).mp found
        obtain ⟨others, further⟩ := ih inner rest goes
        refine ⟨List.forall_mem_cons.mpr ⟨tells, others⟩, ?_⟩
        rw [written, further]
        simp
    | case5 => cases read
  · rintro ⟨tells, rfl⟩
    induction values with
    | nil => simp [readMany]
    | cons value values ih =>
        obtain ⟨c, inner, written, other⟩ := starts value
        obtain ⟨first, others⟩ := List.forall_mem_cons.mp tells
        have found := (reads _ value (values.flatMap write ++ [close] ++ rest)).mpr ⟨first, rfl⟩
        rw [written, List.cons_append] at found
        have goes := ih others
        simp only [List.flatMap_cons, List.append_assoc, written, List.cons_append] at found goes ⊢
        rw [readMany, if_neg other, found]
        simpa using goes

/-- An attribute behind another one. -/
def readFurther : Reader Attribute := fun text => do
  readAttribute (← skip ", ".toList text)

theorem readFurther_reads :
    Reads readFurther (fun item => ", ".toList ++ item.chars) fun item => Clear item.key := by
  intro text item rest
  simp only [readFurther, Option.bind_eq_bind, Option.bind_eq_some_iff, skip_eq_some,
    readAttribute_reads _ _ _]
  constructor
  · rintro ⟨_, rfl, clear, rfl⟩
    exact ⟨clear, (List.append_assoc ..).symm⟩
  · rintro ⟨clear, rfl⟩
    exact ⟨_, List.append_assoc .., clear, rfl⟩

/-- The attributes between brackets.  There is one at least. -/
def readAttributes : Reader (List Attribute) := fun text => do
  let (first, rest) ← readAttribute (← skip ['['] text)
  let (others, rest) ← readMany ']' readFurther rest
  some (first :: others, rest)

/-- There is an attribute, and no key runs into its value. -/
def Legible (attributes : List Attribute) : Prop :=
  attributes ≠ [] ∧ ∀ item ∈ attributes, Clear item.key

/-- **A list of attributes is read back if and only if it is legible.** -/
theorem readAttributes_reads : Reads readAttributes attributeList Legible := by
  intro text attributes rest
  have further := readMany_reads readFurther_reads ']' fun item => ⟨',', _, rfl, by decide⟩
  simp only [readAttributes, Option.bind_eq_bind, Option.bind_eq_some_iff, Prod.exists,
    skip_eq_some, readAttribute_reads _ _ _, further _ _ _, Option.some_inj, Prod.mk.injEq]
  constructor
  · rintro ⟨_, rfl, first, _, ⟨clear, rfl⟩, others, _, ⟨each, rfl⟩, rfl, rfl⟩
    refine ⟨⟨List.cons_ne_nil _ _, List.forall_mem_cons.mpr ⟨clear, each⟩⟩, ?_⟩
    simp [attributeList, furtherAttributes]
  · rintro ⟨⟨some_one, each⟩, rfl⟩
    obtain ⟨first, others, rfl⟩ := List.exists_cons_of_ne_nil some_one
    obtain ⟨clear, each⟩ := List.forall_mem_cons.mp each
    refine ⟨_, ?_, first, _, ⟨clear, rfl⟩, others, rest, ⟨each, rfl⟩, rfl, rfl⟩
    simp [attributeList, furtherAttributes]

/-! ## Statements and graphs -/

/-- What stands behind the subject of a statement. -/
def readEnding : Reader (List Attribute) := fun text => do
  let (attributes, rest) ← readAttributes (← skip [' '] text)
  some (attributes, ← skip [';', '\n'] rest)

/-- An edge has an arrow behind its first id. -/
def readStatement : Reader Statement := fun text => do
  let (source, rest) ← readText (← skip "  ".toList text)
  match skip " -> ".toList rest with
  | some rest => do
      let (target, rest) ← readText rest
      let (attributes, rest) ← readEnding rest
      some (.edge source target attributes, rest)
  | none => do
      let (attributes, rest) ← readEnding rest
      some (.vertex source attributes, rest)

/-- A graph with nothing behind it. -/
def readGraph (text : List Char) : Option Graph := do
  let (name, rest) ← readText (← skip "digraph ".toList text)
  let (statements, rest) ← readMany '\x7d' readStatement (← skip [' ', '\x7b', '\n'] rest)
  if rest = ['\n'] then some ⟨name, statements⟩ else none

theorem readEnding_reads :
    Reads readEnding (fun attributes => ' ' :: attributeList attributes ++ [';', '\n'])
      Legible := by
  intro text attributes rest
  simp only [readEnding, Option.bind_eq_bind, Option.bind_eq_some_iff, Prod.exists,
    skip_eq_some, readAttributes_reads _ _ _, Option.some_inj, Prod.mk.injEq]
  constructor
  · rintro ⟨_, rfl, _, _, ⟨legible, rfl⟩, _, rfl, rfl, rfl⟩
    exact ⟨legible, by simp⟩
  · rintro ⟨legible, rfl⟩
    refine ⟨_, ?_, attributes, _, ⟨legible, rfl⟩, rest, rfl, rfl, rfl⟩
    simp

/-- The attributes of the statement are legible. -/
def Statement.Legible (statement : Statement) : Prop := Dot.Legible statement.attributes

/-- No ending is taken for an arrow. -/
theorem skip_arrow_ending (attributes : List Attribute) (rest : List Char) :
    skip " -> ".toList (' ' :: attributeList attributes ++ [';', '\n'] ++ rest) = none := by
  rw [Option.eq_none_iff_forall_ne_some]
  intro behind found
  have same := skip_eq_some.mp found
  cases attributes with
  | nil => simp [attributeList] at same
  | cons first others => simp [attributeList] at same

/-- **A statement is read back if and only if its attributes are legible**, as a vertex or as an
edge, whichever it is. -/
theorem readStatement_reads : Reads readStatement Statement.line Statement.Legible := by
  intro text statement rest
  simp only [readStatement, Option.bind_eq_bind, Option.bind_eq_some_iff, Prod.exists,
    skip_eq_some, readText_reads _ _ _]
  constructor
  · rintro ⟨_, rfl, source, behind, ⟨-, rfl⟩, read⟩
    cases arrow : skip " -> ".toList behind with
    | some front =>
        simp only [arrow, Option.bind_eq_some_iff, Prod.exists, readText_reads _ _ _,
          readEnding_reads _ _ _, Option.some_inj, Prod.mk.injEq] at read
        obtain ⟨target, _, ⟨-, rfl⟩, attributes, _, ⟨legible, rfl⟩, rfl, rfl⟩ := read
        refine ⟨legible, ?_⟩
        simp [skip_eq_some.mp arrow, Statement.line, Statement.subject, Statement.attributes]
    | none =>
        simp only [arrow, Option.bind_eq_some_iff, Prod.exists,
          readEnding_reads _ _ _, Option.some_inj, Prod.mk.injEq] at read
        obtain ⟨attributes, _, ⟨legible, rfl⟩, rfl, rfl⟩ := read
        refine ⟨legible, ?_⟩
        simp [Statement.line, Statement.subject, Statement.attributes]
  · rintro ⟨legible, rfl⟩
    cases statement with
    | vertex id attributes =>
        have ending := (readEnding_reads _ attributes rest).mpr ⟨legible, rfl⟩
        refine ⟨_, ?_, id, ' ' :: attributeList attributes ++ [';', '\n'] ++ rest,
          ⟨trivial, rfl⟩, ?_⟩
        · simp [Statement.line, Statement.subject, Statement.attributes]
        · simp only [skip_arrow_ending, ending, Option.bind_some]
    | edge source target attributes =>
        let behind := ' ' :: attributeList attributes ++ [';', '\n'] ++ rest
        have ending : readEnding behind = some (attributes, rest) :=
          (readEnding_reads behind attributes rest).mpr ⟨legible, rfl⟩
        have further : readText (quoted target ++ behind) = some (target, behind) :=
          (readText_reads _ target behind).mpr ⟨trivial, rfl⟩
        have arrow : skip " -> ".toList (" -> ".toList ++ (quoted target ++ behind)) =
            some (quoted target ++ behind) := skip_eq_some.mpr rfl
        refine ⟨quoted source ++ (" -> ".toList ++ (quoted target ++ behind)), ?_, source, _,
          ⟨trivial, rfl⟩, ?_⟩
        · simp [behind, Statement.line, Statement.subject, Statement.attributes]
        · simp only [arrow, further, ending, Option.bind_some]

/-- All attributes of the graph are legible. -/
def Graph.Legible (graph : Graph) : Prop := ∀ statement ∈ graph.statements, statement.Legible

theorem Graph.flatten_lines (graph : Graph) :
    graph.lines.flatten = "digraph ".toList ++ (quoted graph.name ++ ([' ', '\x7b', '\n'] ++
      (graph.statements.flatMap Statement.line ++ ['\x7d'] ++ ['\n']))) := by
  unfold Graph.lines Graph.opening
  -- The word is kept from being evaluated.
  generalize "digraph ".toList = word
  simp [List.flatMap_def]

/-- **The text of a graph is read as that graph, and no other text is**, if its attributes are
legible; a graph with other attributes is not read from any text. -/
theorem readGraph_eq_some_iff {text : List Char} {graph : Graph} :
    readGraph text = some graph ↔ graph.Legible ∧ text = graph.lines.flatten := by
  have lines := readMany_reads readStatement_reads '\x7d' fun statement => ⟨' ', _, rfl, by decide⟩
  rw [Graph.flatten_lines]
  simp only [readGraph, Option.bind_eq_bind, Option.bind_eq_some_iff, Prod.exists,
    skip_eq_some, readText_reads _ _ _, lines _ _ _, Option.ite_none_right_eq_some, Option.some_inj]
  constructor
  · rintro ⟨_, rfl, name, _, ⟨-, rfl⟩, _, rfl, statements, _, ⟨each, rfl⟩, rfl, rfl⟩
    exact ⟨each, rfl⟩
  · rintro ⟨each, rfl⟩
    exact ⟨_, rfl, graph.name, _, ⟨trivial, rfl⟩, _, rfl, graph.statements, _, ⟨each, rfl⟩,
      rfl, rfl⟩

end ProgramModel.Dot
