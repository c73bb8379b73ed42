import SmallScale.Json.Reader

namespace SmallScale

/-!
# Libraries for structured text

Structured text is printed and parsed by a library.  Nothing here depends on which
one it is: what is exchanged is described by values, and a library takes values to
texts and texts to values.  `JsonLibrary.builtIn` prints and parses as `Json.write`
and `Json.readPrefix` do.
-/

/-- A printer and a parser of JSON values. -/
structure JsonLibrary where
  print : Json → String
  /-- The value at the start of a text, and whether nothing but blanks follows. -/
  parse? : String → Option (Json × Bool)

namespace JsonLibrary

def builtIn : JsonLibrary where
  print := Json.write
  parse? text :=
    (Json.readPrefix text.toList).map fun (value, rest) => (value, rest.all Json.isBlank)

end JsonLibrary
end SmallScale
