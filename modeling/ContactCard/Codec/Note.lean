import ContactCard.Codec.Text

/-!
# Notes

A class of properties and its codec as an application may register them: no registry has them to begin
with. The codec is given by what it does in plain text alone, so that the other forms hold the plain
text. The data type of a note depends on its text.
-/

namespace ContactCard

open Text

/-- A comment on the subject of the card. -/
def PropertyClass.note : PropertyClass := text.specialise "Note" (some "NOTE")

namespace Format

/-- The default data type of notes. -/
def noteDataType : Version → Option DataType
  | .v4_0 => some .text
  | _ => none

/-- The format of notes. The warning tells what was to be read. -/
def note : Format :=
  TextFormat.toFormat
    { defaultDataType := noteDataType
      dataType := fun p v ↦ p.value.map fun s ↦
        if "urn:".toList.isPrefixOf (s.getD "").toList then some .uri else noteDataType v
      encode := fun p _ ↦ p.value.map fun v ↦ escape (v.getD "")
      decode := fun subject s d v ps ↦
        .ok ⟨Property.ofTextLike subject.target (unescape s),
          ["|".intercalate [s, d.elim "None" DataType.name, v.toText, toString ps.size]]⟩ }

end Format

/-- The codec of notes. -/
def Codec.note : Codec := ofClass "Note" .note .note

end ContactCard
