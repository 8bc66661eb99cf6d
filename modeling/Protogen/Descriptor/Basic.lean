set_option autoImplicit false

namespace Protogen.Descriptor

structure Field where
  name : Option String := none
  number : Option Int32 := none
  label : Option Int32 := none
  kind : Option Int32 := none
  typeName : Option String := none
  jsonName : Option String := none
  choice : Option Int32 := none
  explicitPresence : Option Bool := none

structure EnumValue where
  name : Option String := none
  number : Option Int32 := none

structure Enum where
  name : Option String := none
  values : List EnumValue := []

structure Message where
  name : Option String := none
  fields : List Field := []
  messages : List Message := []
  enums : List Enum := []
  -- The names of the choices between fields.
  choices : List (Option String) := []
  isMapEntry : Option Bool := none

structure Method where
  name : Option String := none
  input : Option String := none
  output : Option String := none
  clientStreaming : Option Bool := none
  serverStreaming : Option Bool := none

structure Service where
  name : Option String := none
  methods : List Method := []

structure File where
  name : Option String := none
  package : Option String := none
  grammar : Option String := none
  dependencies : List String := []
  messages : List Message := []
  enums : List Enum := []
  services : List Service := []

end Protogen.Descriptor
