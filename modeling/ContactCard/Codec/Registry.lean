import ContactCard.Codec.Binary
import ContactCard.Codec.Text

/-!
# The registry of codecs

Codecs are found by the class of a property or by a property name. A class that has no codec of its
own uses that of the nearest class it specialises; failing that, the name decides. A name without a
codec of its own is that of an extension property.

Every card uses the codecs of the standard registry. An application may register more of them for
classes of its own.
-/

namespace ContactCard

open Text

/-- The codecs of classes, by their labels, and of names, in upper case. -/
structure Registry where
  byClass : OrderedMap String Codec
  byName : OrderedMap String Codec

namespace Registry

/-- The codec of a property name. -/
def codecOfName (r : Registry) : Option String → Except Fault Codec
  | none => .error .missingPart
  | some name => .ok ((r.byName.get? (toUpper name)).getD (.extension name))

/-- The codec of a class whose properties have the given name. -/
def codecOf (r : Registry) (c : PropertyClass) (name : Option String) : Except Fault Codec :=
  match c.lineage.findSome? r.byClass.get? with
  | some codec => .ok codec
  | none => r.codecOfName name

/-- The codec of a class. -/
def codecOfClass (r : Registry) (c : PropertyClass) : Except Fault Codec := r.codecOf c c.name

/-- The codec of a property. -/
def codecOfProperty (r : Registry) (p : Property) : Except Fault Codec := r.codecOf p.cls p.name

/-- Makes a codec that of its class and name. A class without a name takes the codec all the same,
but the registration is then refused. -/
def register (r : Registry) (c : PropertyClass) (codec : Codec) : Registry × Except Fault Unit :=
  let byClass := r.byClass.insert c.label codec
  match c.name with
  | none => (⟨byClass, r.byName⟩, .error .missingPart)
  | some name => (⟨byClass, r.byName.insert (toUpper name) codec⟩, .ok ())

/-- Makes a codec with the format of another one that of a class. The format of extension properties
belongs to names and cannot be given to a class. -/
def override (r : Registry) (c : PropertyClass) (like : Codec) :
    Registry × Except Fault Codec :=
  if like.format.perName then (r, .error .wrongKind)
  else
    let codec : Codec := ⟨"Override" ++ like.label, ⟨c, c.name⟩, like.format⟩
    let (r, outcome) := r.register c codec
    (r, outcome.map fun _ ↦ codec)

/-- Registering something that may be a codec. -/
def registerCodec (r : Registry) (c : PropertyClass) :
    Option Codec → Registry × Except Error Codec
  | none => (r, .error .codecRequired)
  | some like =>
    let (r, outcome) := r.override c like
    (r, Fault.lift outcome)

/-- The codecs that every card uses. -/
def standard : Registry :=
  let codecs : List Codec :=
    [.formattedName, .productId, .mailer, .kind, .member, .photo, .logo, .sound]
  codecs.foldl (fun r codec ↦ (r.register codec.subject.target codec).1) ⟨∅, ∅⟩

end Registry

end ContactCard
