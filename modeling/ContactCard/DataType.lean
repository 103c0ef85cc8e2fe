import ContactCard.NamedValue

/-!
# Data types and encodings

The data type of a property value, which the VALUE parameter names and after which the value
elements of an xCard are called, and the encoding of a value, which the ENCODING parameter names.
vCard 2.1 writes base64 as `BASE64` and vCard 3.0 as `b`; the two are different encodings.
-/

namespace ContactCard

open Text

/-- The data type of a value. -/
structure DataType where
  name : String
  deriving DecidableEq

namespace DataType

/-- The data type as a named value. -/
def named (d : DataType) : NamedValue := ⟨.dataType, d.name⟩

/-- The data type of a name, in its canonical spelling if it is well known. -/
def ofName (name : String) : DataType := ⟨(NamedRegistry.standard.get .dataType name).name⟩

/-- Whether two data types are equal: their names agree up to case. -/
def same (a b : DataType) : Bool := a.named.same b.named

/-- Equality of data types where there may be none. -/
def sameOption : Option DataType → Option DataType → Bool
  | some a, some b => a.same b
  | none, none => true
  | _, _ => false

def text : DataType := ⟨"text"⟩

def uri : DataType := ⟨"uri"⟩

def url : DataType := ⟨"url"⟩

end DataType

/-- The encoding of a value. -/
structure Encoding where
  name : String
  deriving DecidableEq

namespace Encoding

/-- The encoding as a named value. -/
def named (e : Encoding) : NamedValue := ⟨.encoding, e.name⟩

/-- The encoding of a name, in its canonical spelling if it is well known. -/
def ofName (name : String) : Encoding := ⟨(NamedRegistry.standard.get .encoding name).name⟩

/-- Whether two encodings are equal: their names agree up to case. -/
def same (a b : Encoding) : Bool := a.named.same b.named

/-- The spelling of base64 in vCard 2.1. -/
def base64 : Encoding := ⟨"BASE64"⟩

/-- The spelling of base64 in vCard 3.0. -/
def b : Encoding := ⟨"b"⟩

/-- Whether the encoding is base64 in either spelling. -/
def isBase64 (e : Encoding) : Bool := e.same base64 || e.same b

end Encoding

end ContactCard
