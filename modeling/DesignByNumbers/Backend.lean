import DesignByNumbers.Markup.Drawing
import DesignByNumbers.Picture.Encoding
import DesignByNumbers.Program

/-!
# Backend — from programs to texts

A backend turns a trace into a text, as a vector graphic or as an encoded picture. A
program is compiled by running it and handing its trace to a backend.
-/

namespace DesignByNumbers

/-- The ways to turn a trace into a text. -/
inductive Backend
  | vector (size : Markup.Size)
  | raster (encoding : Picture.Encoding)
deriving Repr, DecidableEq

namespace Backend

/-- The extension of the files that hold a backend's texts. -/
def extension : Backend → String
  | .vector _ => "svg"
  | .raster encoding => encoding.name

/-- The text of a trace. What fails while the text is written has no diagnostic. -/
def draw (backend : Backend) (trace : List DrawOp) : Except Failure String :=
  match backend with
  | .vector size =>
    match Markup.ofTrace size trace with
    | .error diagnostic => .error (.diagnosed diagnostic)
    | .ok element =>
      match element.print? with
      | some text => .ok text
      | none => .error .unconvertible
  | .raster encoding =>
    match Picture.ofTrace trace with
    | .error diagnostic => .error (.diagnosed diagnostic)
    | .ok picture =>
      match picture.encode? encoding with
      | some text => .ok text
      | none => .error .unconvertible

/-- The text of a program that runs from given meanings of names. -/
def compile (backend : Backend) (source : String) (context : NameMap Binding) :
    Except Failure String := do
  let trace ← Program.interpret (Token.ofSource source) context
  backend.draw trace.toList

end Backend

end DesignByNumbers
