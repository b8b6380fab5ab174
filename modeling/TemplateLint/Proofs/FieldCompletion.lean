import TemplateLint.Proofs.CursorScope
import TemplateLint.Proofs.Enclosing
import TemplateLint.Proofs.PathPrinting

/-! Completing the name of a field. What is typed is found by going back over the characters that
names, points and variables are made of, not by reading a path. So a path is taken as it stands only
if it has no keys, and behind a key it starts anew at the dot. -/
namespace TemplateLint
open Text

/-! Where the pipeline of an action stands in its source. -/

section

variable {c : Char}

theorem isPathChar_of_isBlank (h : isBlank c = true) : isPathChar c = false :=
  of_isBlank (P := fun c => isPathChar c = false) (by decide +kernel) h

theorem isPathChar_of_isNameChar (h : isNameChar c = true) : isPathChar c = true := by
  simp only [isNameChar, Bool.or_eq_true, beq_iff_eq] at h
  simp only [isPathChar, Bool.or_eq_true, beq_iff_eq]
  tauto

end

namespace Declaration

variable {cs name rest : List Char} {op : DeclOp} {decl : Declaration}

theorem suffix_of_takeVar? (h : takeVar? cs = some (name, rest)) : rest <:+ cs := by
  obtain ⟨more, rfl, rfl⟩ := exists_of_takeVar? h
  exact (List.dropWhile_suffix isNameChar).trans (List.suffix_cons _ _)

theorem suffix_of_takeOp? (h : takeOp? cs = some (op, rest)) : '=' :: rest <:+ cs := by
  unfold takeOp? at h
  split at h
  · cases h
    exact List.suffix_cons _ _
  · cases h
  · cases h
    exact List.suffix_rfl
  · cases h

theorem suffix_of_read? (h : read? cs = some (decl, rest)) : '=' :: rest <:+ cs := by
  have hstart (cs : List Char) : trimStart cs <:+ cs := List.dropWhile_suffix isBlank
  unfold read? at h
  obtain ⟨⟨first, tail⟩, hfirst, h⟩ := Option.bind_eq_some_iff.1 h
  have htail := ((hstart tail).trans (suffix_of_takeVar? hfirst)).trans (hstart cs)
  dsimp only at h
  split at h
  · next more hmore =>
    rw [hmore] at htail
    obtain ⟨⟨second, tail'⟩, hsecond, h⟩ := Option.bind_eq_some_iff.1 h
    obtain ⟨⟨op, rest⟩, hop, h⟩ := Option.bind_eq_some_iff.1 h
    cases h
    exact ((suffix_of_takeOp? hop).trans (hstart tail')).trans ((suffix_of_takeVar? hsecond).trans
      ((hstart more).trans ((List.suffix_cons _ _).trans htail)))
  · obtain ⟨⟨op, rest⟩, hop, h⟩ := Option.bind_eq_some_iff.1 h
    cases h
    exact (suffix_of_takeOp? hop).trans htail

theorem exists_split (cs : List Char) :
    ∃ front post, cs = front ++ ((split cs).2 ++ post) ∧
      (∀ c ∈ front.getLast?, isPathChar c = false) ∧ ∀ c ∈ post, isBlank c = true := by
  have hlast {head pre : List Char} (hhead : ∀ c ∈ head.getLast?, isPathChar c = false)
      (hpre : ∀ c ∈ pre, isBlank c = true) :
      ∀ c ∈ (head ++ pre).getLast?, isPathChar c = false := by
    intro c hc
    rw [List.getLast?_append, Option.mem_def, Option.or_eq_some_iff] at hc
    rcases hc with hc | ⟨-, hc⟩
    · exact isPathChar_of_isBlank (hpre c (List.mem_of_getLast? hc))
    · exact hhead c hc
  unfold split
  split
  · next decl rest hread =>
    obtain ⟨head, rfl⟩ := suffix_of_read? hread
    obtain ⟨pre, post, hpre, hpost, hrest⟩ := exists_trim rest
    refine ⟨head ++ ['='] ++ pre, post, ?_, hlast ?_ hpre, hpost⟩
    · rw [List.append_assoc, ← hrest]
      simp
    · rw [List.getLast?_concat]
      rintro _ ⟨⟩
      decide +kernel
  · obtain ⟨pre, post, hpre, hpost, hcs⟩ := exists_trim cs
    exact ⟨pre, post, hcs, hlast (by simp : ∀ c ∈ [].getLast?, isPathChar c = false) hpre, hpost⟩

theorem isBlank_head?_split (cs : List Char) :
    ∀ c ∈ (split cs).2.head?, isBlank c = false := by
  unfold split
  split
  · exact isBlank_head?_trim _
  · exact isBlank_head?_trim _

end Declaration

namespace Piece

variable {left right opening body rest source tail : List Char} {a : ActionText}

theorem exists_read_of_mem_scan (h : action a ∈ scan left right source) :
    left ≠ [] ∧ ∃ rest tail, read left right rest = (action a, tail) := by
  have htext (cs : List Char) : action a ∉ ofText cs := by
    unfold ofText
    split <;> simp
  fun_induction scan left right source with
  | case1 source => exact absurd h (htext source)
  | case2 source before after hcut ih =>
    rcases List.mem_append.1 h with h | h
    · exact absurd h (htext before)
    · rcases List.mem_cons.1 h with h | h
      · refine ⟨(eq_of_cut? hcut).1, after, (read left right after).2, ?_⟩
        rw [h]
      · exact ih h

theorem openMarker_cases (cs : List Char) :
    (openMarker cs).1 = [] ∨ (openMarker cs).1 = ['-'] := by
  unfold openMarker
  split
  · split <;> simp
  · simp

theorem bounds_of_read (h : read left right rest = (action a, tail))
    (hcomment : a.comment = false) :
    (a.opening = left ∨ a.opening = left ++ ['-']) ∧
      a.closing = (if a.trimRight then ['-'] else []) ++ right := by
  unfold read at h
  dsimp only at h
  split at h
  · unfold readComment at h
    repeat' split at h
    all_goals cases h
    all_goals cases hcomment
  · constructor
    · rw [readPlain_opening h]
      rcases openMarker_cases rest with hmarker | hmarker <;> simp [hmarker]
    · exact readPlain_closing h

end Piece

namespace NodeBody

variable {parts : ActionText} {a : Action} {inner : List Char}

theorem of_readAction (h : (readAction parts inner).1 = action a) :
    a.expr = String.ofList (Declaration.split inner).2 ∧ a.trimRight = parts.trimRight := by
  unfold readAction at h
  dsimp only at h
  split at h
  case h_11 =>
    cases h
    exact ⟨rfl, rfl⟩
  all_goals cases h

theorem exists_of_read {p : Piece} (h : (read p).1 = action a) :
    ∃ parts, p = .action parts ∧ parts.comment = false ∧
      (readAction parts (trim parts.inner)).1 = action a := by
  cases p with
  | text | malformed => cases h
  | action parts =>
    unfold read at h
    dsimp only at h
    split at h
    · cases h
    · next hcomment =>
      split at h
      · cases h
      · exact ⟨parts, rfl, by simpa using hcomment, h⟩

end NodeBody

def Action.closing (a : Action) (d : Delimiters) : List Char :=
  (if a.trimRight then ['-'] else []) ++ d.right.toList

/-- An action whose pipeline stands behind the text `before` of the source. Between the pipeline and
the end of the action are only blanks. -/
structure Node.Locates (n : Node) (d : Delimiters) (source : String) (a : Action)
    (before : List Char) : Prop where
  body : n.body = .action a
  start_lt : n.span.start < byteLength before
  ends : ∃ blanks after, (∀ c ∈ blanks, isBlank c = true) ∧
    source.toList = before ++ (a.expr.toList ++ blanks ++ a.closing d) ++ after ∧
    n.span.stop = byteLength before + byteLength (a.expr.toList ++ blanks ++ a.closing d)

namespace NodeBody

variable {left right source : List Char} {p : Piece} {a : Action}

theorem exists_raw_of_read {d : Delimiters}
    (hp : p ∈ Piece.scan d.left.toList d.right.toList source) (h : (read p).1 = action a) :
    ∃ front blanks, p.raw = front ++ (a.expr.toList ++ blanks ++ a.closing d) ∧ front ≠ [] ∧
      (∀ c ∈ front.getLast?, isPathChar c = true → front = d.left.toList) ∧
      (∀ c ∈ blanks, isBlank c = true) ∧ ∀ c ∈ a.expr.toList.head?, isBlank c = false := by
  obtain ⟨parts, rfl, hcomment, haction⟩ := exists_of_read h
  obtain ⟨hexpr, htrim⟩ := of_readAction haction
  obtain ⟨hleft, _, _, hread⟩ := Piece.exists_read_of_mem_scan hp
  obtain ⟨hopening, hclosing⟩ := Piece.bounds_of_read hread hcomment
  obtain ⟨pre, post, hpre, hpost, hinner⟩ := exists_trim parts.inner
  obtain ⟨head, blanks, hsplit, hhead, hblanks⟩ := Declaration.exists_split (trim parts.inner)
  rw [Action.closing, htrim, hexpr, String.toList_ofList, ← hclosing]
  refine ⟨parts.opening ++ pre ++ head, blanks ++ post, ?_, ?_, ?_, ?_, ?_⟩
  · rw [Piece.raw, ActionText.raw]
    conv => lhs; rw [hinner, hsplit]
    simp only [List.append_assoc]
  · rcases hopening with hopening | hopening <;> simp [hopening, hleft]
  · intro c hc hpath
    rw [List.getLast?_append, Option.mem_def, Option.or_eq_some_iff] at hc
    rcases hc with hc | ⟨hnone, hc⟩
    · simp [hhead c hc] at hpath
    · rw [List.getLast?_append, Option.or_eq_some_iff] at hc
      rcases hc with hc | ⟨hnone', hc⟩
      · simp [isPathChar_of_isBlank (hpre c (List.mem_of_getLast? hc))] at hpath
      · rw [List.getLast?_eq_none_iff.1 hnone, List.getLast?_eq_none_iff.1 hnone', List.append_nil,
          List.append_nil]
        rcases hopening with hopening | hopening
        · exact hopening
        · rw [hopening, List.getLast?_concat, Option.some_inj] at hc
          rw [← hc] at hpath
          exact absurd hpath (by decide +kernel)
  · intro c hc
    rcases List.mem_append.1 hc with hc | hc
    · exact hblanks c hc
    · exact hpost c hc
  · exact Declaration.isBlank_head?_split _

end NodeBody

namespace Template

variable {d : Delimiters} {source : String} {index : Nat} {n : Node} {a : Action}

theorem exists_piece_of_action (hn : (parse d source).nodes[index]? = some n)
    (ha : n.body = .action a) :
    ∃ p, (p, n.span) ∈ Piece.placed d source ∧ n.raw = String.ofList p.raw ∧
      (NodeBody.read p).1 = .action a := by
  obtain ⟨p, hp, hraw, hbody⟩ := exists_read_of_getElem? hn
  rw [ha] at hbody
  rcases hbody with hbody | ⟨hplain, -⟩
  · exact ⟨p, List.mem_of_getElem? hp, hraw, hbody.symm⟩
  · cases hplain

/-- Going back from a pipeline, a path could go on only into a delimiter right before it. -/
theorem exists_locates (hn : (parse d source).nodes[index]? = some n) (ha : n.body = .action a) :
    ∃ before, n.Locates d source a before ∧
      (∀ c ∈ before.getLast?, isPathChar c = true → d.left.toList <:+ before) ∧
      ∀ c ∈ a.expr.toList.head?, isBlank c = false := by
  obtain ⟨p, hplaced, -, hread⟩ := exists_piece_of_action hn ha
  obtain ⟨front, blanks, hraw, hfront, hlast, hblanks, hhead⟩ :=
    NodeBody.exists_raw_of_read (List.of_mem_zip hplaced).1 hread
  obtain ⟨pre, after, hsource, hspan⟩ := Piece.around_of_mem_spans hplaced
  rw [Piece.flatMap_raw_scan, hraw] at hsource
  rw [hraw] at hspan
  have hsize : byteLength front ≠ 0 := fun hzero => hfront (byteLength_eq_zero.1 hzero)
  refine ⟨pre ++ front, ⟨ha, ?_, blanks, after, hblanks, ?_, ?_⟩, ?_, hhead⟩
  · rw [hspan]
    simp only [byteLength_append]
    omega
  · rw [hsource]
    simp only [List.append_assoc]
  · rw [hspan]
    simp only [byteLength_append]
    omega
  · intro c hc hpath
    rw [List.getLast?_append_of_ne_nil _ hfront] at hc
    rw [hlast c hc hpath]
    exact List.suffix_append _ _

theorem nodeAt?_of_lt {offset : Nat} (hn : (parse d source).nodes[index]? = some n)
    (htext : n.isText = false) (hlt : n.span.start < offset) (hle : offset ≤ n.span.stop) :
    (parse d source).nodeAt? offset = some (index, n) := by
  obtain ⟨hindex, rfl⟩ := List.getElem?_eq_some_iff.1 hn
  refine Option.map_eq_some_iff.2 ⟨((parse d source).nodes[index], index), ?_, rfl⟩
  refine List.find?_eq_some_iff_getElem.2 ⟨?_, index, by simpa using hindex, by simp, ?_⟩
  · simp [htext, Span.contains, hlt.le, hle]
  · intro j hj
    have hpast := List.pairwise_iff_getElem.1 (tiles_parse d source).pairwise_stop_le j index
      (by simp; omega) (by simpa using hindex) hj
    simp only [List.getElem_map] at hpast
    simp [Span.contains, hpast.trans_lt hlt]

end Template

/-! What is typed. -/

section

variable {c : Char} {cs base typed rest : List Char}

theorem typedPath_append (h : ∀ c ∈ rest, isPathChar c = true) :
    typedPath (cs ++ rest) = typedPath cs ++ rest := by
  have hreverse : ∀ c ∈ rest.reverse, isPathChar c = true := by simpa using h
  unfold typedPath
  rw [List.reverse_append, List.takeWhile_append_of_pos hreverse, List.reverse_append,
    List.reverse_reverse]

theorem typedPath_stop (hc : isPathChar c = false) : typedPath (cs ++ [c]) = [] := by
  simp [typedPath, hc]

theorem exists_getLast?_of_typedPath_ne_nil (h : typedPath cs ≠ []) :
    ∃ c ∈ cs.getLast?, isPathChar c = true := by
  rcases List.eq_nil_or_concat cs with rfl | ⟨front, c, rfl⟩
  · exact absurd rfl h
  · refine ⟨c, by simp, ?_⟩
    cases hc : isPathChar c with
    | true => rfl
    | false => exact absurd (typedPath_stop hc) (by simpa using h)

theorem splitLastDot?_append (h : '.' ∉ typed) :
    splitLastDot? (base ++ '.' :: typed) = some (base, typed) := by
  have hreverse : ∀ c ∈ typed.reverse, (c != '.') = true := by
    intro c hc
    rw [bne_iff_ne]
    rintro rfl
    exact h (List.mem_reverse.1 hc)
  have hsplit : (base ++ '.' :: typed).reverse = typed.reverse ++ '.' :: base.reverse := by simp
  unfold splitLastDot?
  rw [hsplit, List.dropWhile_append_of_pos hreverse, List.takeWhile_append_of_pos hreverse]
  simp

end

def ScopeStack.candidates (s : ScopeStack) (p : Path) (typed : List Char) : List Completion :=
  (s.resolve p).toOption.elim [] fun ref =>
    ((ref.type s.root).fields.filter fun f => typed <+: f.name.toList).map fun f =>
      { label := f.name, detail := f.label, kind := .field }

theorem completeField_eq (s : ScopeStack) (base typed : List Char) :
    completeField s base typed =
      (if base = [] then some Path.dot else Path.ofChars? base).elim [] (s.candidates · typed) := by
  have hstarts : (fun f : TypeNode => typed.isPrefixOf f.name.toList) =
      fun f => decide (typed <+: f.name.toList) := by
    funext f
    rw [Bool.eq_iff_iff, List.isPrefixOf_iff_prefix, decide_eq_true_iff]
  unfold completeField ScopeStack.candidates
  dsimp only
  rw [hstarts]
  cases (if base = [] then some Path.dot else Path.ofChars? base) with
  | none => rfl
  | some p =>
    rw [Option.bind_some, Option.elim_some]
    cases s.resolve p <;> rfl

namespace Segment

variable {cs : List Char} {kept fields segments : List Segment} {key : String}

theorem Reads.isPathChar (h : Reads cs segments) (hkeys : ∀ key, .index key ∉ segments) :
    ∀ c ∈ cs, isPathChar c = true := by
  induction h with
  | nil => simp
  | @field name rest segments named longest _ ih =>
    have hname := (takeWhile_of_takeName (isName_of_takeName longest named).2 named).1
    rw [List.takeWhile_eq_self_iff] at hname
    refine List.forall_mem_cons.2 ⟨by decide +kernel, ?_⟩
    intro c hc
    rcases List.mem_append.1 hc with hc | hc
    · exact isPathChar_of_isNameChar (hname c hc)
    · exact ih (fun key hkey => hkeys key (List.mem_cons_of_mem _ hkey)) c hc
  | index => exact absurd List.mem_cons_self (hkeys _)

theorem Reads.exists_of_append (h : Reads cs (kept ++ .index key :: fields)) :
    ∃ front rest, cs = front ++ ']' :: rest ∧ Reads rest fields := by
  induction kept generalizing cs with
  | nil =>
    cases h with
    | @index key rest _ _ _ more => exact ⟨'[' :: key, rest, by simp, more⟩
  | cons segment kept ih =>
    cases h with
    | @field name _ _ _ _ more =>
      obtain ⟨front, rest, rfl, hrest⟩ := ih more
      exact ⟨'.' :: (name ++ front), rest, by simp, hrest⟩
    | @index key _ _ _ _ more =>
      obtain ⟨front, rest, rfl, hrest⟩ := ih more
      exact ⟨'[' :: (key ++ ']' :: front), rest, by simp, hrest⟩

end Segment

namespace Path

variable {cs : List Char} {segments : List Segment} {p : Path}

theorem exists_reads_of_ofChars? (h : ofChars? cs = some p) :
    ∃ opening rest, trim cs = opening ++ rest ∧ Segment.Reads rest p.segments ∧
      ∀ c ∈ opening, isPathChar c = true := by
  unfold ofChars? at h
  split at h
  · next htrim =>
    cases h
    refine ⟨['.'], [], htrim, .nil, ?_⟩
    intro c hc
    cases List.mem_singleton.1 hc
    decide +kernel
  · next htrim =>
    obtain ⟨segments, hsegments, rfl⟩ := Option.map_eq_some_iff.1 h
    exact ⟨[], _, htrim, Segment.reads_of_readAll? hsegments, by simp⟩
  · next rest htrim =>
    obtain ⟨⟨name, tail⟩, htake⟩ : ∃ parts, takeName rest = parts := ⟨_, rfl⟩
    have hrest : name ++ tail = rest := by
      have happend := takeName_append rest
      rwa [htake] at happend
    rw [htake] at h
    obtain ⟨segments, hsegments, rfl⟩ := Option.map_eq_some_iff.1 h
    refine ⟨'$' :: name, tail, by simp [htrim, hrest], Segment.reads_of_readAll? hsegments, ?_⟩
    refine List.forall_mem_cons.2 ⟨by decide +kernel, ?_⟩
    intro c hc
    by_cases hname : name = []
    · simp [hname] at hc
    · rw [← (takeWhile_of_takeName htake hname).1] at hc
      exact isPathChar_of_isNameChar (List.mem_takeWhile_imp hc)
  · cases h

theorem ofChars?_of_reads (h : Segment.Reads cs segments) (hkeys : ∀ key, .index key ∉ segments)
    (hlast : ∀ c ∈ cs.getLast?, isBlank c = false) :
    (if cs = [] then some dot else ofChars? cs) = some ⟨.dot, segments⟩ := by
  cases h with
  | nil => rfl
  | @field name rest segments named longest more =>
    have hpoint : isBlank '.' = false := by decide +kernel
    rw [if_neg (by simp)]
    exact ofChars?_point (trim_eq_self (by simpa using hpoint) hlast) (by simp [named])
      (.field named longest more)
  | index => exact absurd List.mem_cons_self (hkeys _)

end Path

/-- What is listed if the text from the pipeline's start to the cursor is `base`, a point and
`typed`, where `base` is read as the path `p`. -/
structure ScopeStack.Lists (s : ScopeStack) (before base typed : List Char) (p : Path)
    (listed : List Completion) : Prop where
  /-- A path without keys is taken as it stands. -/
  plain : (∀ c ∈ base.getLast?, isBlank c = false) → (∀ key, .index key ∉ p.segments) →
    typedPath before = [] → listed = s.candidates p typed
  /-- Of a path with keys, only what follows the last key is left, as if the dot stood before it. -/
  keyed : (∀ c ∈ base.getLast?, isBlank c = false) → ∀ kept key fields,
    p.segments = kept ++ .index key :: fields → (∀ key, .index key ∉ fields) →
      listed = s.candidates ⟨.dot, fields⟩ typed
  /-- Nothing is left of a path that is set off by a blank. -/
  blank : (∃ c ∈ base.getLast?, isBlank c = true) → listed = s.candidates .dot typed
  /-- Right behind a delimiter that could be a part of a path, it is taken for one. -/
  glued : (∀ c ∈ base.getLast?, isBlank c = false) → (∀ key, .index key ∉ p.segments) →
    typedPath before ≠ [] →
      listed = (Path.ofChars? (typedPath before ++ base)).elim [] (s.candidates · typed)

section

variable {o : Options} {source : String} {index : Nat} {n : Node} {a : Action}
  {before base typed rest : List Char} {p : Path}

theorem complete_of_locates (ctx : Context)
    (hn : (Template.parse o.delimiters source).nodes[index]? = some n)
    (hlocates : n.Locates o.delimiters source a before)
    (hexpr : a.expr.toList = base ++ '.' :: (typed ++ rest))
    (htyped : ∀ c ∈ typed, isNameChar c = true) :
    complete o ctx source (byteLength (before ++ (base ++ '.' :: typed))) =
      completeField ((Template.parse o.delimiters source).scopeAt o ctx index)
        (typedPath (before ++ base)) typed := by
  obtain ⟨hbody, hstart, blanks, after, -, hsource, hstop⟩ := hlocates
  rw [hexpr] at hsource hstop
  have hsplit : splitBytes? (byteLength (before ++ (base ++ '.' :: typed))) source.toList =
      some (before ++ (base ++ '.' :: typed), rest ++ blanks ++ a.closing o.delimiters ++ after) :=
    splitBytes?_eq_some_iff.2 ⟨by simp [hsource], rfl⟩
  have hnode : (Template.parse o.delimiters source).nodeAt?
      (byteLength (before ++ (base ++ '.' :: typed))) = some (index, n) := by
    apply Template.nodeAt?_of_lt hn
    · simp [Node.isText, hbody]
    · rw [byteLength_append]
      omega
    · simp only [hstop, byteLength_append, byteLength_cons]
      omega
  have hpath : ∀ c ∈ '.' :: typed, isPathChar c = true :=
    List.forall_mem_cons.2 ⟨by decide +kernel, fun c hc => isPathChar_of_isNameChar (htyped c hc)⟩
  have hpoint : '.' ∉ typed := by
    intro hmem
    exact absurd (htyped _ hmem) (by decide +kernel)
  have htypedPath : typedPath (before ++ (base ++ '.' :: typed)) =
      typedPath (before ++ base) ++ '.' :: typed := by
    rw [← List.append_assoc, typedPath_append hpath]
  unfold complete
  dsimp only
  rw [hsplit, hnode]
  dsimp only
  rw [htypedPath, splitLastDot?_append hpoint]

theorem exists_reads_of_base (hp : base = [] ∧ p = .dot ∨ Path.ofChars? base = some p)
    (hfirst : ∀ c ∈ base.head?, isBlank c = false)
    (hlast : ∀ c ∈ base.getLast?, isBlank c = false) :
    ∃ opening tail, base = opening ++ tail ∧ Segment.Reads tail p.segments ∧
      ∀ c ∈ opening, isPathChar c = true := by
  rcases hp with ⟨rfl, rfl⟩ | hp
  · exact ⟨[], [], rfl, .nil, by simp⟩
  · have hreads := Path.exists_reads_of_ofChars? hp
    rwa [trim_eq_self hfirst hlast] at hreads

theorem typedPath_of_plain (hp : base = [] ∧ p = .dot ∨ Path.ofChars? base = some p)
    (hfirst : ∀ c ∈ base.head?, isBlank c = false) (hlast : ∀ c ∈ base.getLast?, isBlank c = false)
    (hkeys : ∀ key, .index key ∉ p.segments) :
    typedPath (before ++ base) = typedPath before ++ base := by
  obtain ⟨opening, tail, rfl, htail, hopening⟩ := exists_reads_of_base hp hfirst hlast
  apply typedPath_append
  intro c hc
  rcases List.mem_append.1 hc with hc | hc
  · exact hopening c hc
  · exact htail.isPathChar hkeys c hc

theorem exists_typedPath_of_keyed {kept fields : List Segment} {key : String}
    (hp : base = [] ∧ p = .dot ∨ Path.ofChars? base = some p)
    (hfirst : ∀ c ∈ base.head?, isBlank c = false) (hlast : ∀ c ∈ base.getLast?, isBlank c = false)
    (hsegments : p.segments = kept ++ .index key :: fields) (hkeys : ∀ key, .index key ∉ fields) :
    ∃ tail, typedPath (before ++ base) = tail ∧ Segment.Reads tail fields ∧
      ∀ c ∈ tail.getLast?, isBlank c = false := by
  obtain ⟨opening, rest, rfl, hrest, -⟩ := exists_reads_of_base hp hfirst hlast
  rw [hsegments] at hrest
  obtain ⟨front, tail, rfl, htail⟩ := hrest.exists_of_append
  refine ⟨tail, ?_, htail, ?_⟩
  · have hsplit : before ++ (opening ++ (front ++ ']' :: tail)) =
        (before ++ opening ++ front ++ [']']) ++ tail := by simp
    rw [hsplit, typedPath_append (htail.isPathChar hkeys), typedPath_stop (by decide +kernel),
      List.nil_append]
  · intro c hc
    apply hlast
    rw [← List.append_assoc, List.getLast?_append, List.getLast?_cons, Option.mem_def.1 hc]
    rfl

theorem lists_complete (ctx : Context)
    (hn : (Template.parse o.delimiters source).nodes[index]? = some n)
    (hlocates : n.Locates o.delimiters source a before)
    (hhead : ∀ c ∈ a.expr.toList.head?, isBlank c = false)
    (hexpr : a.expr.toList = base ++ '.' :: (typed ++ rest))
    (htyped : ∀ c ∈ typed, isNameChar c = true)
    (hp : base = [] ∧ p = .dot ∨ Path.ofChars? base = some p) :
    ((Template.parse o.delimiters source).scopeAt o ctx index).Lists before base typed p
      (complete o ctx source (byteLength (before ++ (base ++ '.' :: typed)))) := by
  have hfirst : ∀ c ∈ base.head?, isBlank c = false := by
    intro c hc
    apply hhead
    rw [hexpr, List.head?_append, Option.mem_def.1 hc]
    rfl
  have hstem : (if base = [] then some Path.dot else Path.ofChars? base) = some p := by
    rcases hp with ⟨rfl, rfl⟩ | hp
    · rfl
    · rw [if_neg, hp]
      rintro rfl
      cases hp
  rw [complete_of_locates ctx hn hlocates hexpr htyped, completeField_eq]
  constructor
  · intro hlast hkeys hbefore
    rw [typedPath_of_plain hp hfirst hlast hkeys, hbefore, List.nil_append, hstem]
    rfl
  · intro hlast kept key fields hsegments hkeys
    obtain ⟨tail, htail, hreads, hend⟩ :=
      exists_typedPath_of_keyed hp hfirst hlast hsegments hkeys
    rw [htail, Path.ofChars?_of_reads hreads hkeys hend]
    rfl
  · rintro ⟨c, hc, hblank⟩
    obtain ⟨front, rfl⟩ := List.getLast?_eq_some_iff.1 (Option.mem_def.1 hc)
    rw [← List.append_assoc, typedPath_stop (isPathChar_of_isBlank hblank)]
    rfl
  · intro hlast hkeys hbefore
    rw [typedPath_of_plain hp hfirst hlast hkeys, if_neg (by simp [hbefore])]

end

/-- Completion lists the fields of the path that is typed in an action if the path has no keys, is
not set off by a blank and does not follow a delimiter that looks like a part of it; what is listed
otherwise is found behind the last key, at the dot, or for a longer path. -/
theorem completion_forgets_up_to_last_key (o : Options) (ctx : Context) (source : String)
    {index : Nat} {n : Node} {a : Action}
    (hn : (Template.parse o.delimiters source).nodes[index]? = some n) (ha : n.body = .action a) :
    ∃ before, n.Locates o.delimiters source a before ∧
      (typedPath before ≠ [] → o.delimiters.left.toList <:+ before) ∧
      ∀ base typed rest p, a.expr.toList = base ++ '.' :: (typed ++ rest) →
        (∀ c ∈ typed, isNameChar c = true) →
        (base = [] ∧ p = .dot ∨ Path.ofChars? base = some p) →
        ((Template.parse o.delimiters source).scopeAt o ctx index).Lists before base typed p
          (complete o ctx source (byteLength (before ++ (base ++ '.' :: typed)))) := by
  obtain ⟨before, hlocates, hlast, hhead⟩ := Template.exists_locates hn ha
  refine ⟨before, hlocates, ?_, ?_⟩
  · intro hbefore
    obtain ⟨c, hc, hpath⟩ := exists_getLast?_of_typedPath_ne_nil hbefore
    exact hlast c hc hpath
  · intro base typed rest p hexpr htyped hp
    exact lists_complete ctx hn hlocates hhead hexpr htyped hp

theorem completion_forgets_up_to_last_key_of_declaration :
    let source := Delimiters.wrap {} "- $n := $.Été.N | len -"
    let person : TypeNode := .structure_ "Été" "Person"
      [.scalar "Name" "string", .scalar "Age" "int", .scalar "Notes" "[]Note"]
    let ctx : Context := { file := "page", root := .root [person] }
    ∃ n a before, (Template.parse {} source).nodes[0]? = some n ∧ n.Locates {} source a before ∧
      complete {} ctx source (byteLength (before ++ "$.Été.N".toList)) =
        [⟨"Name", "string", .field⟩, ⟨"Notes", "[]Note", .field⟩] := by
  intro source person ctx
  let a : Action :=
    { expr := "$.Été.N | len", decl := some ⟨["n"], .declare⟩, path := none, trimLeft := true
      trimRight := true }
  let scope := (Template.parse {} source).scopeAt {} ctx 0
  let p : Path := ⟨.root, [.field "Été"]⟩
  obtain ⟨hnode, hp, hlisted⟩ :
      (Template.parse {} source).nodes[0]?.map Node.body = some (.action a) ∧
        Path.ofChars? "$.Été".toList = some p ∧
        scope.candidates p ['N'] = [⟨"Name", "string", .field⟩, ⟨"Notes", "[]Note", .field⟩] := by
    decide +kernel
  obtain ⟨n, hn, hbody⟩ := Option.map_eq_some_iff.1 hnode
  obtain ⟨before, hlocates, hbefore, hlists⟩ :=
    completion_forgets_up_to_last_key {} ctx source hn hbody
  have hplain : typedPath before = [] := by
    by_contra hne
    obtain ⟨c, hc, hpath⟩ := exists_getLast?_of_typedPath_ne_nil hne
    obtain ⟨front, rfl⟩ := hbefore hne
    have hlast : ({} : Delimiters).left.toList.getLast? = some '{' := by decide
    rw [List.getLast?_append, hlast] at hc
    cases hc
    exact absurd hpath (by decide +kernel)
  have hname : ∀ c ∈ ['N'], isNameChar c = true := by
    intro c hc
    cases List.mem_singleton.1 hc
    decide +kernel
  have hend : ∀ c ∈ "$.Été".toList.getLast?, isBlank c = false := by
    rw [show "$.Été".toList.getLast? = some 'é' by decide]
    rintro _ ⟨⟩
    decide +kernel
  have hlist := hlists "$.Été".toList ['N'] " | len".toList p (by decide) hname (.inr hp)
  refine ⟨n, a, before, hn, hlocates, ?_⟩
  exact (hlist.plain hend (by simp [p]) hplain).trans hlisted

/-- The fields of an item are not listed behind the brackets that pick it. -/
theorem completion_behind_key_lists_fields_of_dot :
    let source := Delimiters.wrap {} " .Items[0].N "
    let item : TypeNode := .structure_ "" "Item" [.scalar "Name" "string", .scalar "Qty" "int"]
    let ctx : Context :=
      { file := "page", root := .root [.slice "Items" item, .scalar "Note" "string"] }
    let scope := (Template.parse {} source).scopeAt {} ctx 0
    scope.candidates ⟨.dot, [.field "Items", .index "0"]⟩ ['N'] = [⟨"Name", "string", .field⟩] ∧
      complete {} ctx source 14 = [⟨"Note", "string", .field⟩] := by
  decide +kernel

end TemplateLint
