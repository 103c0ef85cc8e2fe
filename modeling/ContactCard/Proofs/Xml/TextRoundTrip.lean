import ContactCard.Proofs.Xml.LostNamespace

/-!
# Texts and values in a round trip

Attribute values are written so that every character of XML is read back, line ends and tabs among
them: what a reader would change is written as a reference. Texts are escaped, too, but of carriage
returns nothing but the character itself is written, and a reader takes it for a line feed. So a text
is read back just when it holds no carriage return (`texts_read_back_iff`).
-/

namespace ContactCard.Xml

open Text Markup

variable {w : Writer} {e : Element}

/-- Of the characters of XML only carriage returns are read otherwise than they are written. -/
theorem tidyText_eq_self_iff {s : String} (h : ∀ c ∈ s.toList, isXmlChar c = true) :
    tidyText s = s ↔ '\r' ∉ s.toList := by
  have htidy : (tidyText s).toList = normalizeLineEnds s.toList := by
    rw [tidyText, String.toList_ofList, tidy,
      map_allowedChar_of_isAllowed fun c hc ↦ isForbidden_of_isXmlChar (h c hc)]
  rw [← String.toList_inj, htidy]
  constructor
  · intro heq hcr
    rcases mem_normalizeLineEnds (heq.symm ▸ hcr) with hlf | ⟨-, hne⟩
    · exact absurd hlf (by decide)
    · exact hne rfl
  · exact normalizeLineEnds_eq_self

/-- Values of characters of XML are written as they are. -/
theorem clean_eq_self {s : String} (h : ∀ c ∈ s.toList, isXmlChar c = true) : clean s = s := by
  rw [clean, map_allowedChar_of_isAllowed fun c hc ↦ isForbidden_of_isXmlChar (h c hc),
    String.ofList_toList]

namespace Element

/-- The values of the first element are read back in the second one and, if it has no children,
its text just when it holds no carriage return. -/
structure IsReadBack (x y : Element) : Prop where
  values : y.attributes.map Prod.snd = x.attributes.map Prod.snd
  text : x.children = [] → (y.ownText = x.ownText ↔ '\r' ∉ x.ownText.toList)

variable {x y z : Element}

theorem IsFoundAs.ownText_eq (h : x.IsFoundAs y) (hleaf : x.children = []) :
    y.ownText = x.ownText := by
  rw [ownText, h.text hleaf, Value.text?_ofOption, ← String.toList_inj, toList_getD_optionalText]

/-- What an element of a parser is written with is found tidy, and only its text can differ. -/
theorem IsGiven.isReadBack {d : Option String} (hx : x.IsGiven) (hxy : IsFoundWith d x y)
    (hz : (y.mapTexts tidyText clean).IsFoundAs z) : x.IsReadBack z where
  values := by
    have hclean : ∀ s ∈ x.attributes.map Prod.snd, clean s = s := by
      intro s hs
      obtain ⟨a, ha, rfl⟩ := List.mem_map.mp hs
      exact clean_eq_self (hx.values a ha)
    calc z.attributes.map Prod.snd = (y.attributes.map Prod.snd).map clean := by
          rw [hz.attributes, attributes_mapTexts, List.map_map, List.map_map]
          rfl
      _ = x.attributes.map Prod.snd := by
          rw [hxy.values, List.map_congr_left hclean, List.map_id']
  text hleaf := by
    have hleaf' : (y.mapTexts tidyText clean).children = [] := by
      have hy := hxy.isLeaf.mpr hleaf
      cases y
      obtain rfl : _ = [] := hy
      rfl
    have htext : y.ownText = x.ownText := by rw [ownText, hxy.text, ownText]
    rw [hz.ownText_eq hleaf', ownText_mapTexts, htext, tidyText_eq_self_iff hx.text]

end Element

end ContactCard.Xml
