import ContactCard.Proofs.Xml.Layout

/-!
# Reading what was written

Markup that is written out gives the tokens of the element that it stands for, with the names that
are written and laid out as the indentation has it (`reads_render`).

Characters of texts and values are read one by one, so whatever is written for a single character
has to be read as that character, and the rest follows for any number of them (`Reads.flatMap`).
For the same reason nothing needs to be known about what comes before or after: `Reads` is about a
part of a document, and parts are put together by `Reads.trans`.
-/

namespace ContactCard.Xml

open Text Markup

/-! ### Reading parts of a document -/

/-- From one mode, reading the characters gives the tokens and leads to the other mode. -/
def Reads (mode : Mode) (cs : List Char) (tokens : List Token) (mode' : Mode) : Prop :=
  ∀ rest, scan mode (cs ++ rest) = (scan mode' rest).map (tokens ++ ·)

namespace Reads

variable {mode mode' mode'' : Mode} {cs cs' : List Char} {tokens tokens' : List Token}

theorem nil (mode : Mode) : Reads mode [] [] mode := by
  intro rest
  simp

theorem single {c : Char} (h : step mode c = some (mode', tokens)) :
    Reads mode [c] tokens mode' := by
  intro rest
  rw [List.singleton_append, scan, h]
  simp only [Option.bind_eq_bind, Option.bind_some, Option.map_eq_bind]
  rfl

theorem trans (h : Reads mode cs tokens mode') (h' : Reads mode' cs' tokens' mode'') :
    Reads mode (cs ++ cs') (tokens ++ tokens') mode'' := by
  intro rest
  rw [List.append_assoc, h, h', Option.map_map]
  simp only [Function.comp_def, List.append_assoc]

/-- Reading a character and then more, where the character gives no token. -/
theorem cons {c : Char} (h : step mode c = some (mode', [])) (h' : Reads mode' cs tokens mode'') :
    Reads mode (c :: cs) tokens mode'' := (single h).trans h'

/-- If each character is read from what is written for it, then all of them are. -/
theorem flatMap {f : List Char → Mode} {w : Char → List Char} {cs : List Char}
    (h : ∀ c ∈ cs, ∀ done, Reads (f done) (w c) [] (f (done ++ [c]))) (done : List Char) :
    Reads (f done) (cs.flatMap w) [] (f (done ++ cs)) := by
  induction cs generalizing done with
  | nil => simpa using nil (f done)
  | cons c cs ih =>
    have hfirst := h c List.mem_cons_self done
    have hrest := ih (fun d hd ↦ h d (List.mem_cons_of_mem _ hd)) (done ++ [c])
    rw [List.flatMap_cons]
    simpa using hfirst.trans hrest

/-- If each character is read as itself, then all of them are. -/
theorem all {f : List Char → Mode} {cs : List Char}
    (h : ∀ c ∈ cs, ∀ done, step (f done) c = some (f (done ++ [c]), [])) (done : List Char) :
    Reads (f done) cs [] (f (done ++ cs)) := by
  have := flatMap (w := fun c ↦ [c]) (fun c hc done ↦ single (h c hc done)) done
  simpa using this

end Reads

/-! ### Characters -/

/-- A reference in a text. -/
theorem reads_textReference {n : List Char} {c : Char} (hn : ';' ∉ n)
    (hc : referencedChar? n = some c) (cs : List Char) :
    Reads (.text cs) ('&' :: n ++ [';']) [] (.text (cs ++ [c])) := by
  have hstart : step (.text cs) '&' = some (.textReference cs [], []) := rfl
  have hname : Reads (.textReference cs []) n [] (.textReference cs n) :=
    Reads.all (f := Mode.textReference cs)
      (fun d hd done ↦ by rw [step, if_neg (by rintro rfl; exact hn hd)]) []
  have hend : step (.textReference cs n) ';' = some (.text (cs ++ [c]), []) := by
    rw [step, if_pos rfl, hc]
    rfl
  exact ((Reads.single hstart).trans hname).trans (Reads.single hend)

/-- A character of a text is read from what is written for it. -/
theorem reads_escapeChar (c : Char) (cs : List Char) :
    Reads (.text cs) (escapeChar c) [] (.text (cs ++ [c])) := by
  by_cases hamp : c = '&'
  · subst hamp
    exact reads_textReference (n := "amp".toList) (by decide) (by decide) cs
  by_cases hlt : c = '<'
  · subst hlt
    exact reads_textReference (n := "lt".toList) (by decide) (by decide) cs
  by_cases hgt : c = '>'
  · subst hgt
    exact reads_textReference (n := "gt".toList) (by decide) (by decide) cs
  rw [escapeChar, if_neg hamp, if_neg hlt, if_neg hgt]
  refine Reads.single ?_
  rw [step, if_neg hlt, if_neg hamp, if_neg fun h ↦ hgt h.1]

/-- A text is read from what is written for it. -/
theorem reads_escapeText (cs done : List Char) :
    Reads (.text done) (escapeText cs) [] (.text (done ++ cs)) :=
  Reads.flatMap (fun c _ done ↦ reads_escapeChar c done) done

section Value

variable (head : TagHead) (key : List Char) {quote : Char}

/-- A reference in an attribute value. -/
theorem reads_valueReference {n : List Char} {c : Char} (hn : ';' ∉ n)
    (hc : referencedChar? n = some c) (hquote : quote ∈ ['"', '\'']) (cs : List Char) :
    Reads (.value head key quote cs) ('&' :: n ++ [';']) []
      (.value head key quote (cs ++ [c])) := by
  have hamp : '&' ≠ quote := by rintro rfl; exact absurd hquote (by decide)
  have hstart : step (.value head key quote cs) '&' =
      some (.valueReference head key quote cs [], []) := by
    rw [step, if_neg hamp, if_neg (by decide), if_pos rfl]
  have hname : Reads (.valueReference head key quote cs []) n []
      (.valueReference head key quote cs n) :=
    Reads.all (f := Mode.valueReference head key quote cs)
      (fun d hd done ↦ by rw [step, if_neg (by rintro rfl; exact hn hd)]) []
  have hend : step (.valueReference head key quote cs n) ';' =
      some (.value head key quote (cs ++ [c]), []) := by
    rw [step, if_pos rfl, hc]
    rfl
  exact ((Reads.single hstart).trans hname).trans (Reads.single hend)

/-- A character of an attribute value, other than the quote, is read from what is written for it. -/
theorem reads_escapeAttributeChar {c : Char} (hc : c ≠ quote) (hquote : quote ∈ ['"', '\''])
    (cs : List Char) :
    Reads (.value head key quote cs) (escapeAttributeChar c) []
      (.value head key quote (cs ++ [c])) := by
  by_cases hnl : c = '\n'
  · subst hnl
    exact reads_valueReference head key (n := "#10".toList) (by decide) (by decide +kernel)
      hquote cs
  by_cases hcr : c = '\r'
  · subst hcr
    exact reads_valueReference head key (n := "#13".toList) (by decide) (by decide +kernel)
      hquote cs
  by_cases htab : c = '\t'
  · subst htab
    exact reads_valueReference head key (n := "#9".toList) (by decide) (by decide +kernel) hquote cs
  rw [escapeAttributeChar, if_neg hnl, if_neg hcr, if_neg htab]
  by_cases hamp : c = '&'
  · subst hamp
    exact reads_valueReference head key (n := "amp".toList) (by decide) (by decide) hquote cs
  by_cases hlt : c = '<'
  · subst hlt
    exact reads_valueReference head key (n := "lt".toList) (by decide) (by decide) hquote cs
  by_cases hgt : c = '>'
  · subst hgt
    exact reads_valueReference head key (n := "gt".toList) (by decide) (by decide) hquote cs
  -- a reader turns white space in a value into blanks, but only the blank is written as it is
  have hspace : (if isSpace c then ' ' else c) = c := by
    by_cases h : c = ' '
    · subst h
      rfl
    · have : isSpace c = false := by simp [isSpace, h, htab, hnl, hcr]
      simp [this]
  rw [escapeChar, if_neg hamp, if_neg hlt, if_neg hgt]
  refine Reads.single ?_
  rw [step, if_neg hc, if_neg hlt, if_neg hamp, hspace]

/-- A character of an attribute value in double quotes is read from what is written for it, where a
double quote is written as a reference. -/
theorem reads_escapeQuotes (c : Char) (cs : List Char) :
    Reads (.value head key '"' cs)
      ((escapeAttributeChar c).flatMap fun d ↦ if d = '"' then "&quot;".toList else [d]) []
      (.value head key '"' (cs ++ [c])) := by
  by_cases hc : c = '"'
  · subst hc
    exact reads_valueReference head key (n := "quot".toList) (by decide) (by decide) (by decide)
      cs
  -- only a double quote has a double quote written for it, so escaping quotes changes nothing
  have hother : '"' ∉ escapeAttributeChar c := by
    rw [escapeAttributeChar, escapeChar]
    repeat' split
    all_goals first | decide | simpa using Ne.symm hc
  have hsame : ∀ d ∈ escapeAttributeChar c, (if d = '"' then "&quot;".toList else [d]) = [d] :=
    fun d hd ↦ if_neg fun (h : d = '"') ↦ hother (h ▸ hd)
  rw [List.flatMap_def, List.map_congr_left hsame, ← List.flatMap_def, List.flatMap_singleton']
  exact reads_escapeAttributeChar head key hc (by decide) cs

/-- A quoted value is read as the value of the attribute. -/
theorem reads_quoteValue (cs : List Char) :
    Reads (.beforeValue head key) (quoteValue cs) [] (.afterValue ⟨head.name,
      head.attributes ++ [(String.ofList key, String.ofList cs)]⟩) := by
  have hquoted : ∀ quote ∈ ['"', '\''], ∀ escaped,
      Reads (.value head key quote []) escaped [] (.value head key quote cs) →
      Reads (.beforeValue head key) (quote :: escaped ++ [quote]) [] (.afterValue ⟨head.name,
        head.attributes ++ [(String.ofList key, String.ofList cs)]⟩) := by
    intro quote hquote escaped hvalue
    have hopen : step (.beforeValue head key) quote = some (.value head key quote [], []) := by
      rw [step, if_pos (by simpa using hquote)]
    have hclose : step (.value head key quote cs) quote = some (.afterValue ⟨head.name,
        head.attributes ++ [(String.ofList key, String.ofList cs)]⟩, []) := by
      rw [step, if_pos rfl]
    exact Reads.cons hopen (hvalue.trans (Reads.single hclose))
  have hplain : ∀ quote ∈ ['"', '\''], quote ∉ cs →
      Reads (.value head key quote []) (cs.flatMap escapeAttributeChar) []
        (.value head key quote cs) := by
    intro quote hquote hmem
    exact Reads.flatMap (f := Mode.value head key quote) (fun c hc done ↦
      reads_escapeAttributeChar head key (by rintro rfl; exact hmem hc) hquote done) []
  rw [quoteValue]
  by_cases hdouble : cs.contains '"' = true
  · by_cases hsingle : cs.contains '\'' = true
    · rw [if_pos hdouble, if_pos hsingle, List.flatMap_assoc]
      exact hquoted '"' (by decide) _ (Reads.flatMap (f := Mode.value head key '"')
        (fun c _ done ↦ reads_escapeQuotes head key c done) [])
    · rw [if_pos hdouble, if_neg hsingle]
      exact hquoted '\'' (by decide) _ (hplain '\'' (by decide) (by simpa using hsingle))
  · rw [if_neg hdouble]
    exact hquoted '"' (by decide) _ (hplain '"' (by decide) (by simpa using hdouble))

end Value

/-! ### Tags -/

/-- Whether the characters make up a name, perhaps with colons in it. -/
def isWrittenName : List Char → Bool
  | [] => false
  | c :: cs => isWrittenNameStart c && cs.all isWrittenNamePart

/-- A name is read to its end wherever a name may begin. -/
theorem reads_name {mode : Mode} {f : List Char → Mode}
    (hstart : ∀ c, isWrittenNameStart c = true → step mode c = some (f [c], []))
    (hpart : ∀ done c, isWrittenNamePart c = true → step (f done) c = some (f (done ++ [c]), []))
    {name : List Char} (h : isWrittenName name = true) : Reads mode name [] (f name) := by
  cases name with
  | nil => exact absurd h (by decide)
  | cons c cs =>
    obtain ⟨hc, hcs⟩ := Bool.and_eq_true_iff.mp h
    have hrest : Reads (f [c]) cs [] (f ([c] ++ cs)) :=
      Reads.all (fun d hd done ↦ hpart done d (List.all_eq_true.mp hcs d hd)) [c]
    exact Reads.cons (hstart c hc) hrest

/-- In this mode the start tag read so far may end. -/
def IsHead (mode : Mode) (head : TagHead) : Prop :=
  ∀ c, isWrittenNamePart c = false → step mode c = finishHead head c

theorem isHead_startName (name : String) : IsHead (.startName name.toList) ⟨name, []⟩ := by
  intro c hc
  rw [step, if_neg (by simp [hc]), String.ofList_toList]

theorem isHead_afterValue (head : TagHead) : IsHead (.afterValue head) head := fun _ _ ↦ rfl

theorem reads_renderPair {mode : Mode} {head : TagHead} (hmode : IsHead mode head) {key : String}
    (hkey : isWrittenName key.toList = true) (value : String) :
    Reads mode (renderPair key.toList value) []
      (.afterValue ⟨head.name, head.attributes ++ [(key, value)]⟩) := by
  have hspace : step mode ' ' = some (.inTag head, []) := by
    rw [hmode ' ' (by decide +kernel)]
    rfl
  have hname : Reads (.inTag head) key.toList [] (.attributeName head key.toList) :=
    reads_name (f := Mode.attributeName head) (fun c hc ↦ by rw [step, if_pos hc])
      (fun done c hc ↦ by rw [step, if_pos hc]) hkey
  have hequals : step (.attributeName head key.toList) '=' =
      some (.beforeValue head key.toList, []) := by
    rw [step, if_neg (by decide +kernel), if_pos rfl]
  have hvalue := reads_quoteValue head key.toList value.toList
  rw [String.ofList_toList, String.ofList_toList] at hvalue
  exact Reads.cons hspace (hname.trans (Reads.cons hequals hvalue))

theorem reads_renderPairs {mode : Mode} {head : TagHead} (hmode : IsHead mode head)
    {attributes : List (String × String)}
    (hkeys : ∀ a ∈ attributes, isWrittenName a.1.toList = true) :
    ∃ mode', Reads mode (attributes.flatMap fun a ↦ renderPair a.1.toList a.2) [] mode' ∧
      IsHead mode' ⟨head.name, head.attributes ++ attributes⟩ := by
  induction attributes generalizing mode head with
  | nil => exact ⟨mode, Reads.nil mode, by simpa using hmode⟩
  | cons a rest ih =>
    have hpair := reads_renderPair hmode (hkeys a List.mem_cons_self) a.2
    obtain ⟨mode', hread, hhead⟩ := ih (isHead_afterValue ⟨head.name, head.attributes ++ [a]⟩)
      fun b hb ↦ hkeys b (List.mem_cons_of_mem _ hb)
    refine ⟨mode', ?_, by simpa using hhead⟩
    rw [List.flatMap_cons]
    exact hpair.trans hread

/-! ### Elements -/

/-- The name of the attribute that declares a prefix. -/
def declarationName (pre : String) : String := if pre.isEmpty then "xmlns" else "xmlns:" ++ pre

namespace Markup

mutual

/-- The element that stands in the markup, with the names that are written. -/
def written : Markup → Element
  | ⟨name, attributes, declarations, text, children⟩ =>
    ⟨name, attributes ++ declarations.map fun d ↦ (declarationName d.2, d.1), .text text, none,
      writtenAll children⟩

def writtenAll : List Markup → List Element
  | [] => []
  | m :: rest => written m :: writtenAll rest

end

theorem isEmpty_writtenAll (ms : List Markup) : (writtenAll ms).isEmpty = ms.isEmpty := by
  cases ms <;> rfl

/-- A start tag shows declarations like attributes. -/
theorem renderStart_eq (name : String) (attributes declarations : List (String × String)) :
    renderStart name attributes declarations = '<' :: (name.toList ++
      (attributes ++ declarations.map fun d ↦ (declarationName d.2, d.1)).flatMap
        fun a ↦ renderPair a.1.toList a.2) := by
  have hdeclaration : renderDeclaration = fun d ↦ renderPair (declarationName d.2).toList d.1 := by
    funext d
    rw [renderDeclaration, declarationName]
    split
    · rfl
    · rw [String.toList_append]
  rw [renderStart, hdeclaration, List.flatMap_append, List.flatMap_map, List.cons_append,
    List.cons_append, List.append_assoc]

/-- With and without an indentation, children are rendered one after the other with the same break
before each of them, and one more before the end tag. -/
theorem render_of_children (indent : Option Nat) (level : Nat) (name : String)
    (attributes declarations : List (String × String)) (text : String) (child : Markup)
    (rest : List Markup) :
    render indent level ⟨name, attributes, declarations, text, child :: rest⟩ =
      renderStart name attributes declarations ++ '>' ::
        escapeText (if indent.isSome then stripChars text.toList else text.toList) ++
        renderAll indent level (child :: rest) ++ breakBefore indent level ++
        ('<' :: '/' :: name.toList ++ ['>']) := by
  cases indent with
  | none => simp [render, breakBefore]
  | some width => simp [render, breakBefore]

theorem renderAll_cons (indent : Option Nat) (level : Nat) (m : Markup) (rest : List Markup) :
    renderAll indent level (m :: rest) =
      breakBefore indent (level + 1) ++ render indent (level + 1) m ++
        renderAll indent level rest := by
  cases indent <;> rfl

end Markup

namespace Element

/-- The names of an element and its attributes may be written. -/
structure HasWrittenNames (x : Element) : Prop where
  tag : isWrittenName x.tag.toList = true
  keys : ∀ a ∈ x.attributes, isWrittenName a.1.toList = true

end Element

/-- The start tag of an element is read up to its bracket. -/
theorem reads_renderStart {e : Element} (he : e.HasWrittenNames) (pending : List Char) :
    ∃ mode, Reads (.text pending) ('<' :: (e.tag.toList ++
        e.attributes.flatMap fun a ↦ renderPair a.1.toList a.2)) (textTokens pending) mode ∧
      IsHead mode ⟨e.tag, e.attributes⟩ := by
  have hopen : step (.text pending) '<' = some (.tagOpen, textTokens pending) := rfl
  have hslash : ∀ c, isWrittenNameStart c = true → c ≠ '/' := by
    rintro c hc rfl
    exact absurd hc (by decide +kernel)
  have hname : Reads .tagOpen e.tag.toList [] (.startName e.tag.toList) :=
    reads_name (fun c hc ↦ by rw [step, if_neg (hslash c hc), if_pos hc])
      (fun done c hc ↦ by rw [step, if_pos hc]) he.tag
  obtain ⟨mode, hpairs, hhead⟩ := reads_renderPairs (isHead_startName e.tag) he.keys
  refine ⟨mode, ?_, hhead⟩
  have := ((Reads.single hopen).trans hname).trans hpairs
  simpa using this

/-- An end tag is read after its opening bracket. -/
theorem reads_close {name : String} (hname : isWrittenName name.toList = true) :
    Reads .tagOpen ('/' :: name.toList ++ ['>']) [.closing name] (.text []) := by
  have hread : Reads .closeOpen name.toList [] (.closeName name.toList) :=
    reads_name (fun c hc ↦ by rw [step, if_pos hc]) (fun done c hc ↦ by rw [step, if_pos hc]) hname
  have hend : step (.closeName name.toList) '>' = some (.text [], [.closing name]) := by
    rw [step, if_neg (by decide +kernel), if_pos rfl, String.ofList_toList]
  exact (Reads.cons rfl hread).trans (Reads.single hend)

/-- A break is read as a part of the text. -/
theorem reads_breakBefore (indent : Option Nat) (level : Nat) (pending : List Char) :
    Reads (.text pending) (breakBefore indent level) []
      (.text (pending ++ breakBefore indent level)) := by
  refine Reads.all (fun c hc done ↦ ?_) pending
  have hc : c = '\n' ∨ c = ' ' := by
    cases indent with
    | none => exact absurd hc List.not_mem_nil
    | some width =>
      rcases List.mem_cons.mp hc with rfl | hc
      · exact .inl rfl
      · exact .inr (List.eq_of_mem_replicate hc)
  rcases hc with rfl | rfl <;> rfl

variable {indent : Option Nat}

mutual

/-- What is rendered for markup is read as the tokens of its element. -/
theorem reads_render (level : Nat) :
    ∀ m : Markup, (∀ x ∈ m.written.nodes, x.HasWrittenNames) → ∀ pending,
      Reads (.text pending) (m.render indent level)
        (textTokens pending ++ (m.written.layout indent level).tokens) (.text [])
  | ⟨name, attributes, declarations, text, []⟩, h, pending => by
    have hnames := h _ List.mem_cons_self
    obtain ⟨mode, hstart, hhead⟩ := reads_renderStart hnames pending
    rw [← renderStart_eq] at hstart
    -- an element with nothing in it has no end tag
    by_cases htext : text.isEmpty = true
    · have hslash : step mode '/' = some (.emptyEnd _, []) := hhead '/' (by decide +kernel)
      have hend (head : TagHead) : step (.emptyEnd head) '>' =
          some (.text [], [.opening head.name head.attributes, .closing head.name]) := rfl
      have hall := hstart.trans (Reads.cons hslash (Reads.single (hend _)))
      obtain rfl : text = "" := String.isEmpty_iff.mp htext
      simpa [render, written, writtenAll, Element.layout, Element.tokens, Element.layoutAll,
        Element.tokensAll, Element.laidText, textTokens] using hall
    · have hbracket : step mode '>' = some (.text [], [.opening _ _]) :=
        hhead '>' (by decide +kernel)
      have htext' := reads_escapeText text.toList []
      have hopen : step (.text text.toList) '<' = some (.tagOpen, textTokens text.toList) := rfl
      have hclose := reads_close hnames.tag
      have hall := ((((hstart.trans (Reads.single hbracket)).trans htext').trans
        (Reads.single hopen)).trans hclose)
      simpa [render, htext, written, writtenAll, Element.layout, Element.tokens, Element.layoutAll,
        Element.tokensAll, Element.laidText] using hall
  | ⟨name, attributes, declarations, text, child :: rest⟩, h, pending => by
    have hnames := h _ List.mem_cons_self
    obtain ⟨mode, hstart, hhead⟩ := reads_renderStart hnames pending
    rw [← renderStart_eq] at hstart
    have hbracket : step mode '>' = some (.text [], [.opening _ _]) := hhead '>' (by decide +kernel)
    have htext := reads_escapeText
      (if indent.isSome then stripChars text.toList else text.toList) []
    -- the text before the first child is still pending when that child begins
    have hchildren := reads_renderAll level (child :: rest)
      (fun x hx ↦ h x (List.mem_cons_of_mem _ hx))
      (if indent.isSome then stripChars text.toList else text.toList)
    have hclose := reads_close hnames.tag
    have hall :=
      ((((hstart.trans (Reads.single hbracket)).trans htext).trans hchildren).trans hclose)
    rw [render_of_children]
    simpa [written, writtenAll, Element.layout, Element.tokens, Element.laidText] using hall

/-- What is rendered for the children of an element is read, together with the bracket of its end
tag, as the tokens of the children and the texts after them. -/
theorem reads_renderAll (level : Nat) :
    ∀ ms : List Markup, (∀ x ∈ Element.nodesAll (writtenAll ms), x.HasWrittenNames) → ∀ pending,
      Reads (.text pending) (renderAll indent level ms ++ breakBefore indent level ++ ['<'])
        (textTokens (pending ++
            breakBefore indent (if ms.isEmpty then level else level + 1)) ++
          Element.tokensAll (Element.layoutAll indent level (writtenAll ms))) .tagOpen
  | [], _, pending => by
    have hbreak := reads_breakBefore indent level pending
    have hopen : step (.text (pending ++ breakBefore indent level)) '<' =
        some (.tagOpen, textTokens (pending ++ breakBefore indent level)) := rfl
    simpa [writtenAll, Element.layoutAll, Element.tokensAll, renderAll] using
      hbreak.trans (Reads.single hopen)
  | m :: rest, h, pending => by
    have hbreak := reads_breakBefore indent (level + 1) pending
    have hfirst := reads_render (level + 1) m (fun x hx ↦ h x (List.mem_append_left _ hx))
      (pending ++ breakBefore indent (level + 1))
    have hrest := reads_renderAll level rest (fun x hx ↦ h x (List.mem_append_right _ hx)) []
    have hall := (hbreak.trans hfirst).trans hrest
    rw [renderAll_cons]
    simpa [writtenAll, Element.layoutAll, Element.tokensAll, isEmpty_writtenAll] using hall

end

end ContactCard.Xml
