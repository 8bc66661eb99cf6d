import Protogen.Compile.Run
import Protogen.Descriptor.Wire

set_option autoImplicit false

namespace Protogen.Plugin

structure Request where
  requested : List String
  parameter : Option String
  files : List Descriptor.File

def Request.decode? (bytes : ByteArray) : Option Request :=
  (Descriptor.Tree.ofBytes .request bytes).map fun t => {
    requested := t.texts 1
    parameter := t.text? 2
    files := (t.children 15).map Descriptor.File.ofTree }

structure Response where
  error : Option String := none
  files : List Compile.OutputFile := []

def supportedFeatures : Nat := 1

def respond (r : Request) : Response :=
  match Compile.run r.files r.requested (r.parameter.getD "") with
  | .ok files => { files }
  | .error e => { error := e.message }

private def delimitedTag (w : Wire.Writer) (field : Nat) : Wire.Writer :=
  w.varint (8 * field + Wire.WireType.delimited.number)

private def addFile (w : Wire.Writer) (f : Compile.OutputFile) : Wire.Writer :=
  let child := delimitedTag w 15 |>.fork
  let named := delimitedTag child 1 |>.string f.name
  (delimitedTag named 15 |>.string f.content).join

def Response.encode (r : Response) : ByteArray :=
  let w := Wire.Writer.empty
  let w :=
    match r.error with
    | some e => delimitedTag w 1 |>.string e
    | none => w
  let w := (w.varint (8 * 2)).varint supportedFeatures
  (r.files.foldl addFile w).data

end Protogen.Plugin
