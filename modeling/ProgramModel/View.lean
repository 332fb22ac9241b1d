/-
# ProgramModel.View -- the texts that a package can be shown as

A package is shown as its document in one of two layouts, as a graph, or as the
list of its unresolved calls.  `View.pieces` is the text in the pieces in which it
is written; `View.write` writes it to a sink and says where a failing sink
stopped it: in the body of a document, at a document's end, or in a text.
-/
import ProgramModel.Format.Document
import ProgramModel.Sink
import ProgramModel.View.Graph

namespace ProgramModel

set_option autoImplicit false

def Document.pieces (document : Document) (layout : Json.Layout) : List (List Char) :=
  (Format.document.toJson document).pieces layout 0

/-- The text of a document; it ends in a line break. -/
def Document.chars (document : Document) (layout : Json.Layout) : List Char :=
  (document.pieces layout).flatten ++ ['\n']

def Document.ofJson (text : List Text.Glyph) : Except Json.Fault Document :=
  (Format.document.ofJson text).map Logged.value

/-- A way to show a package. -/
inductive View where
  | document (layout : Json.Layout)
  | graph (name : String)
  | unresolved
  deriving DecidableEq, Repr, Inhabited

/-- Why a view is not written. -/
inductive WriteError where
  /-- The body of a document is incomplete. -/
  | body (cause : SinkFault)
  /-- A document lacks its end. -/
  | ending (cause : SinkFault)
  /-- A text is incomplete. -/
  | text (cause : SinkFault)
  deriving DecidableEq, Repr

/-- The wording of each error. -/
def WriteError.message : WriteError → String
  | .body cause => "invalid JSON: " ++ cause.message
  | .ending cause => cause.message
  | .text cause => cause.message

def Document.write (document : Document) (layout : Json.Layout) (sink : Sink) :
    Writing WriteError Unit := do
  let sink ← (sink.writeAll (document.pieces layout)).mapFault .body
  let sink ← (sink.writeAll [['\n']]).mapFault .ending
  sink.flush.mapFault .ending

def writeLines (lines : List (List Char)) (sink : Sink) : Writing WriteError Unit := do
  let sink ← (sink.writeAll lines).mapFault .text
  sink.flush.mapFault .text

namespace View

/-- The name of a graph that is given none. -/
def graphName : String := "lapp"

def pieces (view : View) (package : Package) : List (List Char) :=
  match view with
  | .document layout => package.document.pieces layout ++ [['\n']]
  | .graph name => (package.graph name).lines
  | .unresolved => package.unresolvedLines

/-- The text of a view. -/
def chars (view : View) (package : Package) : List Char := (view.pieces package).flatten

def text (view : View) (package : Package) : String := String.ofList (view.chars package)

def write (view : View) (package : Package) (sink : Sink) : Writing WriteError Unit :=
  match view with
  | .document layout => package.document.write layout sink
  | .graph name => writeLines (package.graph name).lines sink
  | .unresolved => writeLines package.unresolvedLines sink

end View

end ProgramModel
