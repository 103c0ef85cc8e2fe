import ContactCard.Parameters
import ContactCard.XCard.PropertyElement

/-!
# Parameters in XML

In the XML form of a card the parameters of a property are the first child of its element. Each
parameter is an element named after it, and each of its values an element below that, named after
the data type that the parameter has.
-/

namespace ContactCard

open Xml

namespace Parameters

/-- The names of the elements that hold the values of well-known parameters. -/
def valueNames : List (String × String) :=
  [("altid", "text"), ("calscale", "text"), ("label", "text"), ("mediatype", "text"),
   ("pid", "text"), ("sort-as", "text"), ("type", "text"), ("geo", "uri"), ("tz", "uri"),
   ("language", "language-tag"), ("pref", "integer")]

/-- The name of the elements that hold the values of a well-known parameter. -/
def valueName? (name : String) : Option String := valueNames.lookup name

/-- The name of the elements that hold the values of a parameter. -/
def valueName (name : String) : String := (valueName? name).getD PropertyElement.unknownName

/-- The element of one parameter. -/
def parameterElement (v : Version) (name : String) (values : List String) : Element :=
  { Element.bare (PropertyElement.qualified v name) [] with
    children := values.map fun s ↦
      .leaf (PropertyElement.qualified v (valueName name)) (.text s) }

/-- The element of all parameters. -/
def toElement (ps : Parameters) (v : Version) : Element :=
  { Element.bare (PropertyElement.qualified v "parameters") [] with
    children := ps.table.entries.map fun (name, values) ↦ parameterElement v name values }

end Parameters

end ContactCard
