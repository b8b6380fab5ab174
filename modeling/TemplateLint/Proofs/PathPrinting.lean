import TemplateLint.Proofs.FastPath
import TemplateLint.Proofs.Lexemes
import TemplateLint.Proofs.Slices

/-! Printing paths. A path that was read from some text prints as a text that is read as the same
path, also after it was cut short, whatever its keys are. Paths of names, numbers and quoted texts
are read back as expressions too, because there both readers agree on where a key ends. -/
namespace TemplateLint
open Text

section

variable {cs name rest : List Char}

theorem isName_of_takeName (h : takeName cs = (name, rest)) (hname : name ≠ []) :
    Expr.IsName name := by
  refine ⟨hname, ?_⟩
  cases cs with
  | nil =>
    cases h
    contradiction
  | cons c cs =>
    rw [takeName] at h
    split at h
    · next hstart =>
      cases h
      have hall : ∀ d ∈ cs.takeWhile isNameChar, isNameChar d = true :=
        fun d hd => List.mem_takeWhile_imp hd
      rw [takeName, if_pos hstart, List.takeWhile_eq_self_iff.2 hall,
        List.dropWhile_eq_nil_iff.2 hall]
    · cases h
      contradiction

theorem takeName_append_of_isName (h : Expr.IsName name)
    (hstop : ∀ c ∈ rest.head?, isNameChar c = false) :
    takeName (name ++ rest) = (name, rest) := by
  obtain ⟨hne, htake⟩ := h
  cases name with
  | nil => contradiction
  | cons c name =>
    rw [takeName] at htake
    split at htake
    · next hstart =>
      simp only [Prod.mk.injEq, List.cons.injEq, true_and] at htake
      rw [List.cons_append, takeName, if_pos hstart, takeWhile_append_of_stop hstop,
        dropWhile_append_of_stop hstop, htake.1, htake.2, List.nil_append]
    · cases htake

theorem takeName_of_stop (hstop : ∀ c ∈ rest.head?, isNameChar c = false) :
    takeName ([] ++ rest) = ([], rest) := by
  cases rest with
  | nil => rfl
  | cons c rest =>
    have hstart : isNameStart c ≠ true := by
      intro h
      simp [isNameChar_of_isNameStart h] at hstop
    rw [List.nil_append, takeName, if_neg hstart]

theorem isBlank_getLast?_append (hfirst : ∀ c ∈ cs.getLast?, isBlank c = false)
    (hsecond : ∀ c ∈ rest.getLast?, isBlank c = false) :
    ∀ c ∈ (cs ++ rest).getLast?, isBlank c = false := by
  intro c hc
  rw [List.getLast?_append, Option.mem_def, Option.or_eq_some_iff] at hc
  rcases hc with hc | ⟨-, hc⟩
  · exact hsecond c hc
  · exact hfirst c hc

theorem isBlank_getLast?_of_isName (h : Expr.IsName name) :
    ∀ c ∈ name.getLast?, isBlank c = false := by
  intro c hc
  cases hblank : isBlank c with
  | false => rfl
  | true =>
    have hall := (takeWhile_of_takeName h.2 h.1).1
    rw [List.takeWhile_eq_self_iff] at hall
    have hchar := hall c (List.mem_of_getLast? hc)
    simp [isNameChar_of_isBlank hblank] at hchar

end

namespace Segment

/-- Printed segments that can be read back: the name is one, and the key, which is not empty and has
no blanks around it, ends at the bracket that is printed after it. -/
def Legible : Segment → Prop
  | field name => Expr.IsName name.toList
  | index key => keyRule.Closes key.toList ∧ key.toList ≠ [] ∧ trim key.toList = key.toList

section

variable {cs rest : List Char} {segment : Segment} {segments : List Segment}

theorem legible_of_reads (h : Reads cs segments) : ∀ s ∈ segments, s.Legible := by
  induction h with
  | nil => simp
  | field named longest _ ih =>
    refine List.forall_mem_cons.2 ⟨?_, ih⟩
    simpa [Legible] using isName_of_takeName longest named
  | index closes keyed _ ih =>
    refine List.forall_mem_cons.2 ⟨?_, ih⟩
    simpa [Legible, closes_trim proper_keyRule, trim_trim] using ⟨closes, keyed⟩

theorem isNameChar_head?_chars (segments : List Segment) :
    ∀ c ∈ (segments.flatMap chars).head?, isNameChar c = false := by
  cases segments with
  | nil => simp
  | cons s segments =>
    cases s with
    | field =>
      rintro _ ⟨⟩
      decide +kernel
    | index =>
      rintro _ ⟨⟩
      decide +kernel

theorem reads_chars (h : ∀ s ∈ segments, s.Legible) : Reads (segments.flatMap chars) segments := by
  induction segments with
  | nil => exact .nil
  | cons s segments ih =>
    rw [List.forall_mem_cons] at h
    have hmore := ih h.2
    have hstop := isNameChar_head?_chars segments
    cases s with
    | field name =>
      have hread := Reads.field h.1.1 (takeName_append_of_isName h.1 hstop) hmore
      simpa [chars] using hread
    | index key =>
      obtain ⟨hcloses, hne, htrim⟩ := h.1
      have hread := Reads.index hcloses (by rwa [htrim]) hmore
      simpa [chars, htrim] using hread

theorem isBlank_getLast?_chars (h : ∀ s ∈ segments, s.Legible) :
    ∀ c ∈ (segments.flatMap chars).getLast?, isBlank c = false := by
  induction segments with
  | nil => simp
  | cons s segments ih =>
    rw [List.forall_mem_cons] at h
    rw [List.flatMap_cons]
    refine isBlank_getLast?_append ?_ (ih h.2)
    cases s with
    | field name =>
      have hname := isBlank_getLast?_of_isName h.1
      rwa [← List.getLast?_cons_of_ne_nil h.1.1] at hname
    | index key =>
      intro c hc
      rw [chars, List.getLast?_concat] at hc
      cases hc
      decide +kernel

theorem readAll?_of_read? (h : read? cs = some (segment, rest)) :
    readAll? cs = (readAll? rest).map (segment :: ·) := by
  rw [readAll?, if_neg (by rintro rfl; cases h)]
  split
  · next hnone => cases hnone.symm.trans h
  · next hsome =>
    cases hsome.symm.trans h
    rfl

theorem readAll?_of_reads (h : Reads cs segments) : readAll? cs = some segments := by
  induction h with
  | nil => rw [readAll?, if_pos rfl]
  | @field name rest segments named longest _ ih =>
    have hread : read? ('.' :: (name ++ rest)) = some (.field (String.ofList name), rest) := by
      simp [read?, longest, named]
    rw [readAll?_of_read? hread, ih]
    rfl
  | @index key rest segments closes keyed _ ih =>
    have hread : read? ('[' :: (key ++ ']' :: rest)) =
        some (.index (String.ofList (trim key)), rest) := by
      simp [read?, cutBracket?_append proper_keyRule closes, keyed]
    rw [readAll?_of_read? hread, ih]
    rfl

end

end Segment

namespace Path

/-- Paths whose variable is a name and whose segments are all of a kind. A key directly after dot
has no printed form. -/
structure ComposedOf (kind : Segment → Prop) (p : Path) : Prop where
  variable_named : ∀ name, p.root = .var name → Expr.IsName name.toList
  segments : ∀ s ∈ p.segments, kind s
  leading : p.root = .dot → ∀ key, p.segments.head? ≠ some (.index key)

section

variable {cs : List Char} {p : Path} {segments : List Segment}

theorem ComposedOf.mono {kind kind' : Segment → Prop} (hkind : ∀ s, kind s → kind' s)
    (h : p.ComposedOf kind) : p.ComposedOf kind' :=
  ⟨h.variable_named, fun s hs => hkind s (h.segments s hs), h.leading⟩

theorem ComposedOf.take {kind : Segment → Prop} (h : p.ComposedOf kind) (n : Nat) :
    (p.take n).ComposedOf kind := by
  refine ⟨h.variable_named, fun s hs => h.segments s (List.mem_of_mem_take hs), ?_⟩
  intro hroot key hkey
  rw [Path.take, List.head?_take] at hkey
  split at hkey
  · cases hkey
  · exact h.leading hroot key hkey

theorem ofChars?_dollar {name tail : List Char} (htrim : trim cs = '$' :: (name ++ tail))
    (hname : takeName (name ++ tail) = (name, tail)) (h : Segment.Reads tail segments) :
    ofChars? cs = some ⟨if name = [] then .root else .var (String.ofList name), segments⟩ := by
  unfold ofChars?
  simp [htrim, hname, Segment.readAll?_of_reads h]

theorem ofChars?_point {rest : List Char} (htrim : trim cs = '.' :: rest) (hrest : rest ≠ [])
    (h : Segment.Reads ('.' :: rest) segments) : ofChars? cs = some ⟨.dot, segments⟩ := by
  cases rest with
  | nil => contradiction
  | cons c rest =>
    unfold ofChars?
    simp [htrim, Segment.readAll?_of_reads h]

theorem trim_chars (h : p.ComposedOf Segment.Legible) : trim p.chars = p.chars := by
  have hlast := Segment.isBlank_getLast?_chars h.segments
  have hdollar : isBlank '$' = false := by decide +kernel
  have hpoint : isBlank '.' = false := by decide +kernel
  obtain ⟨base, segments⟩ := p
  cases base with
  | dot =>
    cases segments with
    | nil => exact trim_eq_self (by simpa [chars] using hpoint) (by simpa [chars] using hpoint)
    | cons s segments =>
      cases s with
      | field => exact trim_eq_self (by simpa [chars, Segment.chars] using hpoint) hlast
      | index key => exact absurd rfl (h.leading rfl key)
  | root =>
    have hend : ∀ c ∈ (['$'] ++ segments.flatMap Segment.chars).getLast?, isBlank c = false :=
      isBlank_getLast?_append (by simpa using hdollar) hlast
    exact trim_eq_self (by simpa [chars] using hdollar) hend
  | var name =>
    have hname := h.variable_named name rfl
    have hvariable := isBlank_getLast?_of_isName hname
    rw [← List.getLast?_cons_of_ne_nil hname.1] at hvariable
    have hend := isBlank_getLast?_append hvariable hlast
    exact trim_eq_self (by simpa [chars] using hdollar) hend

theorem ofChars?_chars (h : p.ComposedOf Segment.Legible) : ofChars? p.chars = some p := by
  have htrim := trim_chars h
  have hreads := Segment.reads_chars h.segments
  have hstop := Segment.isNameChar_head?_chars p.segments
  obtain ⟨base, segments⟩ := p
  cases base with
  | dot =>
    cases segments with
    | nil => rfl
    | cons s segments =>
      cases s with
      | field name =>
        have hname : name.toList ≠ [] := (h.segments _ List.mem_cons_self).1
        exact ofChars?_point htrim (by simp [hname]) hreads
      | index key => exact absurd rfl (h.leading rfl key)
  | root =>
    have hnone := takeName_of_stop hstop
    exact ofChars?_dollar htrim hnone hreads
  | var name =>
    have hname := h.variable_named name rfl
    have hread := ofChars?_dollar htrim (takeName_append_of_isName hname hstop) hreads
    simpa [hname.1] using hread

theorem legible_of_ofChars? (h : ofChars? cs = some p) : p.ComposedOf Segment.Legible := by
  unfold ofChars? at h
  split at h
  · cases h
    exact ⟨nofun, by simp [dot], by simp [dot]⟩
  · obtain ⟨segments, hsegments, rfl⟩ := Option.map_eq_some_iff.1 h
    have hreads := Segment.reads_of_readAll? hsegments
    refine ⟨nofun, Segment.legible_of_reads hreads, ?_⟩
    intro _ key hkey
    cases hreads
    cases hkey
  · next rest _ =>
    obtain ⟨⟨name, tail⟩, htake⟩ : ∃ parts, takeName rest = parts := ⟨_, rfl⟩
    rw [htake] at h
    obtain ⟨segments, hsegments, rfl⟩ := Option.map_eq_some_iff.1 h
    have hlegible := Segment.legible_of_reads (Segment.reads_of_readAll? hsegments)
    by_cases hname : name = []
    · rw [if_pos hname]
      exact ⟨nofun, hlegible, nofun⟩
    · rw [if_neg hname]
      refine ⟨?_, hlegible, nofun⟩
      rintro _ ⟨⟩
      rw [String.toList_ofList]
      exact isName_of_takeName htake hname
  · cases h

end

/-- A path that was read from a text, cut after any number of segments, prints as a text that is
read as that path. -/
theorem printed_prefix_is_read_back {text : String} {p : Path} (h : ofString? text = some p)
    (n : Nat) : ofString? (p.take n).toString = some (p.take n) := by
  unfold ofString? Path.toString
  rw [String.toList_ofList]
  exact ofChars?_chars ((legible_of_ofChars? h).take n)

theorem printed_prefix_is_read_back_of_quotes :
    let text := " $x[ \"a\\\"] b\" ].Name[ `]` 0 ] "
    let p : Path := ⟨.var "x", [.index "\"a\\\"] b\"", .field "Name", .index "`]` 0"]⟩
    ofString? text = some p ∧ (p.take 1).toString = "$x[\"a\\\"] b\"]" ∧
      ofString? (p.take 1).toString = some (p.take 1) ∧ ofString? p.toString = some p := by
  intro text p
  have h : ofString? text = some p := by decide +kernel
  exact ⟨h, by decide +kernel, printed_prefix_is_read_back h 1, printed_prefix_is_read_back h 3⟩

end Path

namespace Segment

/-- What may stand between double quotes: a quote in it is escaped, and a backslash escapes the
character after it. -/
inductive QuotedText : List Char → Prop where
  | nil : QuotedText []
  | plain {c : Char} {cs : List Char} (unquoted : c ≠ '"') (unescaped : c ≠ '\\')
      (more : QuotedText cs) : QuotedText (c :: cs)
  | escaped {c : Char} {cs : List Char} (more : QuotedText cs) : QuotedText ('\\' :: c :: cs)

inductive IsKey : List Char → Prop where
  | number {cs : List Char} (nonempty : cs ≠ []) (digits : ∀ c ∈ cs, c.isDigit = true) : IsKey cs
  | text {cs : List Char} (quoted : QuotedText cs) : IsKey ('"' :: (cs ++ ['"']))

def WellFormed : Segment → Prop
  | field name => Expr.IsName name.toList
  | index key => IsKey key.toList

structure ReadsKeys (rule : BracketRule) : Prop where
  opens : rule.isQuote '"' = true
  escapes : rule.hasEscapes '"' = true
  digits : ∀ c, c.isDigit = true → rule.isQuote c = false

section

variable {rule : BracketRule} {cs key : List Char}

theorem foldlM_next?_of_digits (hrule : ReadsKeys rule) (h : ∀ c ∈ cs, c.isDigit = true) :
    cs.foldlM rule.next? .outside = some .outside := by
  induction cs with
  | nil => rfl
  | cons c cs ih =>
    rw [List.forall_mem_cons] at h
    have hbracket : c ≠ ']' := by
      rintro rfl
      cases h.1
    rw [List.foldlM_cons]
    simp only [BracketRule.next?, hrule.digits c h.1, hbracket, Bool.false_eq_true, if_false]
    exact ih h.2

theorem QuotedText.foldlM_next? (h : QuotedText cs) (hrule : ReadsKeys rule) :
    cs.foldlM rule.next? (.inside '"') = some (.inside '"') := by
  induction h with
  | nil => rfl
  | plain unquoted unescaped _ ih =>
    rw [List.foldlM_cons]
    simp only [BracketRule.next?, unquoted, unescaped, false_and, if_false]
    exact ih
  | escaped _ ih =>
    rw [List.foldlM_cons]
    simp only [BracketRule.next?, hrule.escapes, and_self, if_true]
    exact ih

theorem IsKey.closes (h : IsKey key) (hrule : ReadsKeys rule) : rule.Closes key := by
  unfold BracketRule.Closes
  cases h with
  | number _ digits => exact foldlM_next?_of_digits hrule digits
  | @text cs quoted =>
    have hopen : rule.next? .outside '"' = some (.inside '"') := by
      simp [BracketRule.next?, hrule.opens]
    have hclose : rule.next? (.inside '"') '"' = some .outside := by
      simp [BracketRule.next?]
    rw [List.foldlM_cons, hopen]
    change (cs ++ ['"']).foldlM rule.next? (.inside '"') = _
    rw [List.foldlM_append, quoted.foldlM_next? hrule]
    change ['"'].foldlM rule.next? (.inside '"') = _
    rw [List.foldlM_cons, hclose]
    rfl

theorem IsKey.trim_eq (h : IsKey key) : trim key = key := by
  have hdigit {c : Char} (hc : c.isDigit = true) : isBlank c = false := by
    cases hblank : isBlank c with
    | false => rfl
    | true =>
      have hnone : c.isDigit = false :=
        of_isBlank (P := fun c => c.isDigit = false) (by decide +kernel) hblank
      cases hc.symm.trans hnone
  have hquote : isBlank '"' = false := by decide +kernel
  cases h with
  | number _ digits =>
    apply trim_eq_self
    · intro c hc
      exact hdigit (digits c (List.mem_of_mem_head? hc))
    · intro c hc
      exact hdigit (digits c (List.mem_of_getLast? hc))
  | text =>
    apply trim_eq_self
    · simpa using hquote
    · simpa [List.getLast?_cons] using hquote

theorem IsKey.ne_nil (h : IsKey key) : key ≠ [] := by
  cases h with
  | number nonempty => exact nonempty
  | text => simp

theorem readsKeys_keyRule : ReadsKeys keyRule := by
  refine ⟨rfl, rfl, ?_⟩
  intro c hc
  simp only [keyRule, Bool.or_eq_false_iff, beq_eq_false_iff_ne]
  constructor <;> rintro rfl <;> cases hc

theorem readsKeys_indexRule : ReadsKeys Expr.indexRule := by
  refine ⟨rfl, rfl, ?_⟩
  intro c hc
  simp only [Expr.indexRule, Bool.or_eq_false_iff, beq_eq_false_iff_ne]
  refine ⟨⟨?_, ?_⟩, ?_⟩ <;> rintro rfl <;> cases hc

theorem WellFormed.legible {s : Segment} (h : s.WellFormed) : s.Legible := by
  cases s with
  | field => exact h
  | index => exact ⟨IsKey.closes h readsKeys_keyRule, IsKey.ne_nil h, IsKey.trim_eq h⟩

end

end Segment

namespace Path

/-- A path of names, numbers and quoted texts prints as a text that both readers read as that path,
and as an expression it takes up the whole text. -/
theorem wellFormed_path_is_read_back {p : Path} (h : p.ComposedOf Segment.WellFormed) :
    ofString? p.toString = some p ∧
      Expr.parse p.toString = .ok (.path ⟨0, p.toString.utf8ByteSize⟩ p) := by
  have hlegible := h.mono fun _ => Segment.WellFormed.legible
  have hread := ofChars?_chars hlegible
  have hkeys : Expr.KeysClose p.segments :=
    fun key hkey => (h.segments _ hkey).closes Segment.readsKeys_indexRule
  obtain ⟨pre, post, hchars, hparse⟩ := Expr.ofChars_of_keysClose hread hkeys
  rw [trim_chars hlegible] at hchars hparse
  have hpre : pre = [] := by
    have hlength := congrArg List.length hchars
    simp only [List.length_append] at hlength
    exact List.length_eq_zero_iff.1 (by omega)
  subst hpre
  rw [byteLength_nil, Nat.zero_add] at hparse
  unfold ofString? Expr.parse Path.toString
  rw [utf8ByteSize_ofList, String.toList_ofList]
  exact ⟨hread, hparse⟩

theorem wellFormed_path_is_read_back_of_key :
    let p : Path := ⟨.var "été_1", [.index "\"]\\\"\"", .field "Ünit", .index "07"]⟩
    p.toString = "$été_1[\"]\\\"\"].Ünit[07]" ∧ ofString? p.toString = some p ∧
      Expr.parse p.toString = .ok (.path ⟨0, 25⟩ p) := by
  intro p
  have htext : Segment.WellFormed (.index "\"]\\\"\"") :=
    .text (.plain (by decide) (by decide) (.escaped .nil))
  have hfield : Segment.WellFormed (.field "Ünit") := ⟨by decide, by decide +kernel⟩
  have hnumber : Segment.WellFormed (.index "07") :=
    .number (by decide) (List.all_eq_true.1 (by decide))
  have hp : p.ComposedOf Segment.WellFormed := by
    refine ⟨?_, by simp [p, htext, hfield, hnumber], nofun⟩
    rintro _ ⟨⟩
    exact ⟨by decide, by decide +kernel⟩
  exact ⟨by decide +kernel, wellFormed_path_is_read_back hp⟩

end Path
end TemplateLint
