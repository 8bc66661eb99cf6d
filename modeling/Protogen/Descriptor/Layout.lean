set_option autoImplicit false

namespace Protogen.Descriptor

inductive Kind where
  | request
  | version
  | set
  | file
  | message
  | extensionRange
  | range
  | field
  | choice
  | enum
  | enumValue
  | service
  | method
  | fileOptions
  | messageOptions
  | fieldOptions
  | choiceOptions
  | extensionOptions
  | enumOptions
  | enumValueOptions
  | serviceOptions
  | methodOptions
  | uninterpreted
  | namePart
  | sourceInfo
  | location
  deriving DecidableEq

inductive Shape where
  | number
  -- Numbers one by one or in a run.
  | numbers
  | fixed64
  | text
  | bytes
  | child (kind : Kind)

namespace Kind

-- The options of every kind end with those that have not been interpreted.
private def optionsWith (numbers texts : List Nat) (n : Nat) : Option Shape :=
  if n = 999 then some (.child uninterpreted)
  else if numbers.contains n then some .number
  else if texts.contains n then some .text
  else none

def shape? : Kind → Nat → Option Shape
  | request, 1 | request, 2 => some .text
  | request, 3 => some (.child version)
  | request, 15 => some (.child file)
  | version, 1 | version, 2 | version, 3 => some .number
  | version, 4 => some .text
  | set, 1 => some (.child file)
  | file, 1 | file, 2 | file, 3 | file, 12 => some .text
  | file, 4 => some (.child message)
  | file, 5 => some (.child enum)
  | file, 6 => some (.child service)
  | file, 7 => some (.child field)
  | file, 8 => some (.child fileOptions)
  | file, 9 => some (.child sourceInfo)
  | file, 10 | file, 11 => some .numbers
  | message, 1 | message, 10 => some .text
  | message, 2 | message, 6 => some (.child field)
  | message, 3 => some (.child message)
  | message, 4 => some (.child enum)
  | message, 5 => some (.child extensionRange)
  | message, 7 => some (.child messageOptions)
  | message, 8 => some (.child choice)
  | message, 9 => some (.child range)
  | extensionRange, 1 | extensionRange, 2 => some .number
  | extensionRange, 3 => some (.child extensionOptions)
  | range, 1 | range, 2 => some .number
  | field, 1 | field, 2 | field, 6 | field, 7 | field, 10 => some .text
  | field, 3 | field, 4 | field, 5 | field, 9 | field, 17 => some .number
  | field, 8 => some (.child fieldOptions)
  | choice, 1 => some .text
  | choice, 2 => some (.child choiceOptions)
  | enum, 1 | enum, 5 => some .text
  | enum, 2 => some (.child enumValue)
  | enum, 3 => some (.child enumOptions)
  | enum, 4 => some (.child range)
  | enumValue, 1 => some .text
  | enumValue, 2 => some .number
  | enumValue, 3 => some (.child enumValueOptions)
  | service, 1 => some .text
  | service, 2 => some (.child method)
  | service, 3 => some (.child serviceOptions)
  | method, 1 | method, 2 | method, 3 => some .text
  | method, 4 => some (.child methodOptions)
  | method, 5 | method, 6 => some .number
  | fileOptions, n =>
    optionsWith [9, 10, 16, 17, 18, 20, 23, 27, 31, 42] [1, 8, 11, 36, 37, 39, 40, 41, 44, 45] n
  | messageOptions, n => optionsWith [1, 2, 3, 7] [] n
  | fieldOptions, n => optionsWith [1, 2, 3, 5, 6, 10] [] n
  | choiceOptions, n => optionsWith [] [] n
  | extensionOptions, n => optionsWith [] [] n
  | enumOptions, n => optionsWith [2, 3] [] n
  | enumValueOptions, n => optionsWith [1] [] n
  | serviceOptions, n => optionsWith [33] [] n
  | methodOptions, n => optionsWith [33, 34] [] n
  | uninterpreted, 2 => some (.child namePart)
  | uninterpreted, 3 | uninterpreted, 8 => some .text
  | uninterpreted, 4 | uninterpreted, 5 => some .number
  | uninterpreted, 6 => some .fixed64
  | uninterpreted, 7 => some .bytes
  | namePart, 1 => some .text
  | namePart, 2 => some .number
  | sourceInfo, 1 => some (.child location)
  | location, 1 | location, 2 => some .numbers
  | location, 3 | location, 4 | location, 6 => some .text
  | _, _ => none

end Kind

end Protogen.Descriptor
