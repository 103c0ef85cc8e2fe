import ContactCard.Proofs.Codec.Text

/-!
# Lines of plain text

Plain text goes by lines, so a value with a line feed in it ends its property, and what follows is
taken for another one. Reading knows an escaped form of line feeds, but nothing writes it: a text
property is written on one line exactly if its text has no line feed (`written_on_one_line_iff`).
What was written is read back in either case.
-/

namespace ContactCard

open Text

variable {p : Property} {k : PropertyClass} {s : String}

/-- A property of a class of texts with a codec is written on one line just when its text has no line
feed. It is read back from the plain text whatever its text is. -/
theorem written_on_one_line_iff (hk : k ∈ textCodecClasses) (hcls : p.cls = k)
    (hcontent : p.content = .text (some s)) (v : Version) :
    ∃ c written, Registry.standard.codecOfProperty p = .ok c ∧ c.writeText p v = .ok written ∧
      ('\n' ∉ written.toList ↔ '\n' ∉ s.toList) ∧
      ∀ d ps, ∃ reading, c.readText written d v ps = .ok reading ∧ reading.GivesBack p ps := by
  obtain ⟨-, hshape, label, t, hclass, -⟩ := exists_codec_of_mem_textCodecClasses hk
  have hcodec : Registry.standard.codecOfProperty p = .ok (.ofClass label k (.text t)) :=
    codecOfProperty_of_class (by rw [hcls, hclass])
  refine ⟨_, _, hcodec, writeText_text label t hcontent v, ?_, fun d ps ↦ ?_⟩
  · rw [not_iff_not]
    exact mem_escape_iff (by decide)
  · exact ⟨_, readText_escape label hshape t s d v ps, givesBack_ofText hcls hcontent ps⟩

/-- A mailer whose text has what looks like an escaped line feed, and no real one. -/
theorem written_on_one_line_iff_mailer :
    let value := "Post; \\n, v2"
    let p := Property.ofText .mailer (some value)
    PropertyClass.mailer ∈ textCodecClasses ∧ p.cls = .mailer ∧ p.content = .text (some value) ∧
    ∀ v, ∃ c written, Registry.standard.codecOfProperty p = .ok c ∧
      c.writeText p v = .ok written ∧ '\n' ∉ written.toList ∧
      ∀ d ps, ∃ reading, c.readText written d v ps = .ok reading ∧ reading.GivesBack p ps := by
  intro value p
  have hk : PropertyClass.mailer ∈ textCodecClasses := by simp [textCodecClasses]
  refine ⟨hk, rfl, rfl, fun v ↦ ?_⟩
  obtain ⟨c, written, hcodec, hwritten, hline, hread⟩ :=
    written_on_one_line_iff (p := p) (s := value) hk rfl rfl v
  exact ⟨c, written, hcodec, hwritten, hline.mpr (by decide), hread⟩

/-- A name with a line feed, and without a carriage return, is written on two lines, of which the
second looks like another property. With the line feed in its escaped form, in which it is not
written, the same name would be read. -/
theorem name_with_line_feed_split :
    let value := "Club\nTEL:5"
    let p := Property.ofText .formattedName (some value)
    '\r' ∉ value.toList ∧ ∀ v, ∃ c written reading,
      Registry.standard.codecOfProperty p = .ok c ∧
      c.writeText p v = .ok written ∧ '\n' ∈ written.toList ∧ written = "Club\nTEL:5" ∧
      c.readText "Club\\nTEL:5" none v .empty = .ok reading ∧ reading.GivesBack p .empty := by
  intro value p
  have hplain : escape value = value := escape_eq_self_iff.mpr (by decide)
  have hescaped : unescape "Club\\nTEL:5" = value := by decide +kernel
  have hback : (Codec.withParameters .empty ⟨.ofText .formattedName (some value), []⟩).GivesBack p
      .empty := givesBack_ofText (p := p) rfl rfl .empty
  refine ⟨by decide, fun v ↦ ⟨_, _, _, codecOfProperty_of_class rfl,
    writeText_text "FormattedName" .text rfl v, ?_, hplain, rfl, ?_⟩⟩
  · rw [hplain]
    decide
  · rw [hescaped]
    exact hback

end ContactCard
