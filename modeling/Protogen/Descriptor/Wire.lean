import Protogen.Descriptor.Basic
import Protogen.Descriptor.Tree
import Protogen.Wire.Writer

set_option autoImplicit false

namespace Protogen.Descriptor

open Wire (WireType varintBytes)

private def tagged (t : WireType) (field : Nat) (value : List UInt8) : List UInt8 :=
  varintBytes (8 * field + t.number) ++ value

private def ofText (field : Nat) (s : String) : List UInt8 :=
  tagged .delimited field (Wire.Bytes.string s)

private def ofChild (field : Nat) (bytes : List UInt8) : List UInt8 :=
  tagged .delimited field (Wire.Bytes.delimited bytes)

private def text (field : Nat) (s : Option String) : List UInt8 :=
  (s.map (ofText field)).getD []

private def int (field : Nat) (i : Option Int32) : List UInt8 :=
  (i.map fun i => tagged .varint field (Wire.Bytes.int32 i)).getD []

private def bool (field : Nat) (b : Option Bool) : List UInt8 :=
  (b.map fun b => tagged .varint field (Wire.Bytes.bool b)).getD []

def Field.encode (f : Field) : List UInt8 :=
  text 1 f.name ++ int 3 f.number ++ int 4 f.label ++ int 5 f.kind ++ text 6 f.typeName ++
    int 9 f.choice ++ text 10 f.jsonName ++ bool 17 f.explicitPresence

def EnumValue.encode (v : EnumValue) : List UInt8 :=
  text 1 v.name ++ int 2 v.number

def Enum.encode (e : Enum) : List UInt8 :=
  text 1 e.name ++ e.values.flatMap fun v => ofChild 2 v.encode

mutual

def Message.encode : Message → List UInt8
  | ⟨name, fields, messages, enums, choices, isMapEntry⟩ =>
    text 1 name ++ fields.flatMap (fun f => ofChild 2 f.encode) ++ Message.encodeAll messages ++
      enums.flatMap (fun e => ofChild 4 e.encode) ++
      ((isMapEntry.map fun b => ofChild 7 (bool 7 b)).getD []) ++
      choices.flatMap fun name => ofChild 8 (text 1 name)

def Message.encodeAll : List Message → List UInt8
  | [] => []
  | m :: ms => ofChild 3 m.encode ++ Message.encodeAll ms

end

def Method.encode (m : Method) : List UInt8 :=
  text 1 m.name ++ text 2 m.input ++ text 3 m.output ++ bool 5 m.clientStreaming ++
    bool 6 m.serverStreaming

def Service.encode (s : Service) : List UInt8 :=
  text 1 s.name ++ s.methods.flatMap fun m => ofChild 2 m.encode

def File.encode (f : File) : List UInt8 :=
  text 1 f.name ++ text 2 f.package ++ f.dependencies.flatMap (ofText 3) ++
    f.messages.flatMap (fun m => ofChild 4 m.encode) ++
    f.enums.flatMap (fun e => ofChild 5 e.encode) ++
    f.services.flatMap (fun s => ofChild 6 s.encode) ++ text 12 f.grammar

def encodeSet (files : List File) : ByteArray :=
  ⟨(files.flatMap fun f => ofChild 1 f.encode).toArray⟩

def encodeRequest (requested : List String) (parameter : Option String) (files : List File) :
    ByteArray :=
  ⟨(requested.flatMap (ofText 1) ++ text 2 parameter ++
    files.flatMap fun f => ofChild 15 f.encode).toArray⟩

def Field.ofTree (t : Tree) : Field where
  name := t.text? 1
  number := t.int? 3
  label := t.int? 4
  kind := t.int? 5
  typeName := t.text? 6
  jsonName := t.text? 10
  choice := t.int? 9
  explicitPresence := t.bool? 17

def Enum.ofTree (t : Tree) : Enum where
  name := t.text? 1
  values := (t.children 2).map fun v => ⟨v.text? 1, v.int? 2⟩

def Message.ofTree : Nat → Tree → Message
  | 0, _ => {}
  | depth + 1, t => {
    name := t.text? 1
    fields := (t.children 2).map Field.ofTree
    messages := (t.children 3).map (Message.ofTree depth)
    enums := (t.children 4).map Enum.ofTree
    choices := (t.children 8).map (·.text? 1)
    isMapEntry := (t.child? 7).bind (·.bool? 7) }

def Method.ofTree (t : Tree) : Method where
  name := t.text? 1
  input := t.text? 2
  output := t.text? 3
  clientStreaming := t.bool? 5
  serverStreaming := t.bool? 6

def Service.ofTree (t : Tree) : Service where
  name := t.text? 1
  methods := (t.children 2).map Method.ofTree

def File.ofTree (t : Tree) : File where
  name := t.text? 1
  package := t.text? 2
  grammar := t.text? 12
  dependencies := t.texts 3
  messages := (t.children 4).map (Message.ofTree Wire.recursionLimit)
  enums := (t.children 5).map Enum.ofTree
  services := (t.children 6).map Service.ofTree

def decodeSet? (bytes : ByteArray) : Option (List File) :=
  (Tree.ofBytes .set bytes).map fun t => (t.children 1).map File.ofTree

end Protogen.Descriptor
