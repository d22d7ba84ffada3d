import StopAlign.Number.Shortest
import StopAlign.Trip.Segments

/-!
# Layer — segments as a map layer

- `jsonText`  : a text in quotes
- `feature`   : a line with its trip and its index
- `layerFile` : all lines as a feature collection

Coordinates are written longitude first, in degrees of the world geodetic system.
-/

namespace StopAlign

open Number Text

def jsonChar (c : Char) : List Char :=
  if c = '"' ∨ c = '\\' then ['\\', c]
  else if c.toNat < 32 then '\\' :: 'u' :: hexDigits 4 c.toNat
  else [c]

def jsonText (s : String) : String :=
  "\"" ++ String.ofList (s.toList.flatMap jsonChar) ++ "\""

def jsonObject (members : List (String × String)) : String :=
  "\x7b" ++ ", ".intercalate (members.map fun (name, value) => jsonText name ++ ": " ++ value)
    ++ "\x7d"

def jsonArray (values : List String) : String :=
  "[" ++ ", ".intercalate values ++ "]"

def jsonIdent : Ident → String
  | .stray _ | .missing | .absent => "null"
  | id => jsonText id.shown

def feature (l : TripLine) : String :=
  jsonObject
    [("type", jsonText "Feature"),
     ("properties",
      jsonObject [("trip_id", jsonIdent l.trip), ("segment_index", toString l.index)]),
     ("geometry",
      jsonObject [("type", jsonText "LineString"),
        ("coordinates",
          jsonArray (l.points.map fun p => jsonArray [writeReal p.lon, writeReal p.lat]))])]

def layerText (name : String) (lines : List TripLine) : String :=
  "\x7b\n\"type\": \"FeatureCollection\",\n\"name\": " ++ jsonText name ++ ",\n\"features\": [\n"
    ++ ",\n".intercalate (lines.map feature) ++ "\n]\n\x7d\n"

def layerFile (name : String) (lines : List TripLine) : List UInt8 :=
  encode (layerText name lines).toList

end StopAlign
