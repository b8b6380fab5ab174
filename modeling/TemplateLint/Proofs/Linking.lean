import Mathlib.Data.List.Basic
import TemplateLint.Project.Run
import TemplateLint.Proofs.Resolution

/-! Calls of templates across files. What a walk adds to the edges is the types of the contexts; all
else of them can be read off the nodes, whatever goes wrong on the way. So a batch links as its
sources say: a call is reported exactly if no file of the batch defines what it names. -/
namespace TemplateLint
open Text

def BlockKind.edge? : BlockKind → Option EdgeKind
  | define => some .define
  | block => some .block
  | template => some .template
  | range | with_ | if_ | elseIf | else_ => none

def Edge.untyped (e : Edge) : Edge := { e with contextType := none }

def Edge.defines (name : String) (e : Edge) : Bool := e.kind ≠ .template && e.name = name

namespace Node

def edge? (file : String) (n : Node) : Option Edge :=
  match n.body with
  | .blockOpen b => b.kind.edge?.bind fun kind => Walk.edge file n.pos b kind none
  | _ => none

/-- What is to be said of a node if it calls a template that is not among those defined. -/
def dangling? (file : String) (defined : List String) (n : Node) : Option Diagnostic :=
  match n.body with
  | .blockOpen b =>
    if b.kind = .template then
      (b.name.filter (· ∉ defined)).map fun name =>
        { kind := .unresolvedTemplateCall
          message := "no template named " ++ quoted name ++ " is defined"
          file
          line := n.pos.line
          col := n.pos.col
          severity := .error
          subject := name
          raw := "template " ++ quoted name ++
            if trimmed b.expr = "" then "" else " " ++ trimmed b.expr }
    else none
  | _ => none

end Node

namespace Walk

variable (o : Options) (file : String) (w : Walk)

theorem map_untyped_edge (pos : Position) (b : BlockOpen) (kind : EdgeKind)
    (context : Option TypeNode) :
    (edge file pos b kind context).map Edge.untyped = edge file pos b kind none := by
  unfold edge
  rw [Option.map_map]
  rfl

theorem edge_openBranch (b : BlockOpen) : (w.openBranch o b).edge = none := by
  unfold openBranch
  split
  · rfl
  · dsimp only
    split <;> rfl

theorem edge_action (a : Action) : (w.action o a).edge = none := by
  unfold action
  split <;> rfl

theorem edge_openConstruct (pos : Position) (b : BlockOpen) :
    (w.openConstruct o file pos b).edge.map Edge.untyped =
      b.kind.edge?.bind fun kind => edge file pos b kind none := by
  unfold openConstruct
  split
  · next hkind =>
    rw [hkind]
    rfl
  · next hkind =>
    rw [hkind]
    rfl
  · next hkind =>
    rw [hkind]
    rfl
  · next hkind =>
    rw [hkind, edge_openBranch]
    rfl
  · next hkind =>
    rw [hkind, edge_openBranch]
    rfl
  · next hkind =>
    rw [hkind]
    exact map_untyped_edge file pos b .define none
  · next hkind =>
    rw [hkind]
    exact map_untyped_edge file pos b .block _
  · next hkind =>
    rw [hkind]
    exact map_untyped_edge file pos b .template _

theorem edge_effect (n : Node) : (w.effect o file n).edge.map Edge.untyped = n.edge? file := by
  unfold effect Node.edge?
  cases n.body with
  | action a =>
    dsimp only
    rw [edge_action]
    rfl
  | blockOpen b => exact edge_openConstruct o file w n.pos b
  | text | comment _ | blockClose _ | loopControl _ | malformed _ => rfl

/-- The walk loses no edge and adds none, whatever the scopes are. -/
theorem edges_run (nodes : List Node) :
    (w.run o file nodes).2.edges.map Edge.untyped = nodes.filterMap (Node.edge? file) := by
  induction nodes generalizing w with
  | nil => rfl
  | cons n nodes ih =>
    change ((w.effect o file n).edge.toList ++
      ((w.step o file n).1.run o file nodes).2.edges).map Edge.untyped = _
    rw [List.map_append, ih, ← Option.toList_map, edge_effect, List.filterMap_cons]
    cases n.edge? file <;> rfl

end Walk

theorem edges_check (o : Options) (c : Context) (source : String) :
    (check o c source).edges.map Edge.untyped =
      (Template.parse o.delimiters source).nodes.filterMap (Node.edge? c.file) :=
  Walk.edges_run o c.file c.walk _

theorem Problem.kind_ne_unresolved (p : Problem) : p.kind ≠ .unresolvedTemplateCall := by
  unfold Problem.kind
  split <;> simp

theorem Walk.kind_ne_of_mem_run {o : Options} {file : String} {w : Walk} {nodes : List Node}
    {d : Diagnostic} (h : d ∈ (w.run o file nodes).2.diagnostics) :
    d.kind ≠ .unresolvedTemplateCall := by
  induction nodes generalizing w with
  | nil => cases h
  | cons n nodes ih =>
    rcases List.mem_append.1 h with h | h
    · obtain ⟨p, -, rfl⟩ := List.mem_map.1 h
      exact p.kind_ne_unresolved
    · exact ih h

theorem kind_ne_of_mem_check {o : Options} {c : Context} {source : String} {d : Diagnostic}
    (h : d ∈ (check o c source).diagnostics) : d.kind ≠ .unresolvedTemplateCall := by
  rcases List.mem_append.1 (List.mem_mergeSort.1 h) with h | h
  · obtain ⟨i, -, rfl⟩ := List.mem_map.1 h
    exact (Problem.issue i.error i.raw).kind_ne_unresolved
  · exact Walk.kind_ne_of_mem_run h

namespace TemplateGraph

theorem isDefined_add (g : TemplateGraph) (e : Edge) (name : String) :
    (g.add e).isDefined name = (g.isDefined name || e.defines name) := by
  unfold add Edge.defines isDefined NameMap.contains
  cases hkind : e.kind with
  | template => simp
  | define | block =>
    simp only [NameMap.get?_insert]
    by_cases hname : name = e.name
    · simp [hname]
    · simp [hname, Ne.symm hname]

theorem calls_add (g : TemplateGraph) (e : Edge) :
    (g.add e).calls = g.calls ++ if e.kind = .template then [e] else [] := by
  unfold add
  cases e.kind <;> simp

theorem foldl_add (edges : List Edge) (g : TemplateGraph) :
    (∀ name, (edges.foldl add g).isDefined name =
      (g.isDefined name || edges.any (Edge.defines name))) ∧
    (edges.foldl add g).calls = g.calls ++ edges.filter (·.kind = .template) := by
  induction edges generalizing g with
  | nil => simp
  | cons e edges ih =>
    obtain ⟨hdefined, hcalls⟩ := ih (g.add e)
    constructor
    · intro name
      rw [List.foldl_cons, hdefined, isDefined_add, List.any_cons, Bool.or_assoc]
    · rw [List.foldl_cons, hcalls, calls_add, List.filter_cons, List.append_assoc]
      by_cases hkind : e.kind = .template <;> simp [hkind]

theorem isDefined_ofEdges (edges : List Edge) (name : String) :
    (ofEdges edges).isDefined name = edges.any (Edge.defines name) :=
  (foldl_add edges {}).1 name

theorem calls_ofEdges (edges : List Edge) :
    (ofEdges edges).calls = edges.filter (·.kind = .template) :=
  (foldl_add edges {}).2

def unresolved? (edges : List Edge) (e : Edge) : Option Diagnostic :=
  if e.kind = .template ∧ edges.any (Edge.defines e.name) = false then some (unresolvedCall e)
  else none

theorem unresolved_ofEdges (edges : List Edge) :
    (ofEdges edges).unresolved = edges.filterMap (unresolved? edges) := by
  unfold unresolved
  rw [calls_ofEdges, List.filter_filter, ← List.filterMap_eq_map, List.filterMap_filter]
  apply List.filterMap_congr
  intro e _
  rw [isDefined_ofEdges]
  by_cases hkind : e.kind = .template <;>
    cases hdefined : edges.any (Edge.defines e.name) <;> simp [unresolved?, hkind, hdefined]

theorem unresolved_untyped (edges : List Edge) :
    (ofEdges (edges.map Edge.untyped)).unresolved = (ofEdges edges).unresolved := by
  rw [unresolved_ofEdges, unresolved_ofEdges, List.filterMap_map]
  apply List.filterMap_congr
  intro e _
  have hdefines : (edges.map Edge.untyped).any (Edge.defines e.name) =
      edges.any (Edge.defines e.name) := List.any_map
  unfold unresolved? Function.comp
  change (if e.kind = _ ∧ (edges.map Edge.untyped).any (Edge.defines e.name) = _ then _ else _) = _
  rw [hdefines]
  rfl

end TemplateGraph

def SourceFile.template (o : Options) (f : SourceFile) : Template := .parse o.delimiters f.source

def batchDefinitions (o : Options) (files : List SourceFile) : List String :=
  files.flatMap fun f => (f.template o).definitions

def danglingCalls (o : Options) (files : List SourceFile) : List Diagnostic :=
  files.flatMap fun f =>
    (f.template o).nodes.filterMap (Node.dangling? f.name (batchDefinitions o files))

def batchEdges (o : Options) (files : List SourceFile) : List Edge :=
  files.flatMap fun f => (f.template o).nodes.filterMap (Node.edge? f.name)

section

variable (o : Options) (files : List SourceFile)

theorem any_defines_filterMap (file name : String) (nodes : List Node) (issues : List ParseIssue) :
    (nodes.filterMap (Node.edge? file)).any (Edge.defines name) = true ↔
      name ∈ Template.definitions ⟨nodes, issues⟩ := by
  rw [List.any_filterMap, List.any_eq_true, Template.definitions, List.mem_filterMap]
  refine exists_congr fun n => and_congr_right fun _ => ?_
  unfold Node.edge? Walk.edge
  cases n.body with
  | blockOpen b =>
    dsimp only
    cases b.kind <;> cases b.name <;> simp [BlockKind.edge?, Edge.defines]
  | text | comment _ | action _ | blockClose _ | loopControl _ | malformed _ => simp

theorem any_defines_batchEdges (name : String) :
    (batchEdges o files).any (Edge.defines name) = true ↔ name ∈ batchDefinitions o files := by
  rw [batchEdges, List.any_flatMap, List.any_eq_true, batchDefinitions, List.mem_flatMap]
  exact exists_congr fun f => and_congr_right fun _ => any_defines_filterMap f.name name _ _

theorem bind_edge? (file : String) (n : Node) :
    (n.edge? file).bind (TemplateGraph.unresolved? (batchEdges o files)) =
      n.dangling? file (batchDefinitions o files) := by
  have hdefined (name : String) : (batchEdges o files).any (Edge.defines name) = false ↔
      name ∉ batchDefinitions o files := by
    rw [← any_defines_batchEdges, Bool.not_eq_true]
  unfold Node.edge? Node.dangling? Walk.edge
  cases n.body with
  | blockOpen b =>
    dsimp only
    cases b.kind with
    | template =>
      cases b.name with
      | none => rfl
      | some name =>
        by_cases hname : name ∈ batchDefinitions o files
        · simp [BlockKind.edge?, TemplateGraph.unresolved?, hdefined, hname, Option.filter]
        · have hraw : (if trimmed b.expr = "" then "template " ++ quoted name
              else "template " ++ quoted name ++ " " ++ trimmed b.expr) =
              "template " ++ quoted name ++
                if trimmed b.expr = "" then "" else " " ++ trimmed b.expr := by
            split <;> simp [String.append_assoc]
          simp [BlockKind.edge?, TemplateGraph.unresolved?, hdefined, hname, Option.filter,
            TemplateGraph.unresolvedCall, hraw, ToString.toString]
    | define | block => cases b.name <;> simp [BlockKind.edge?, TemplateGraph.unresolved?]
    | range | with_ | if_ | elseIf | else_ => rfl
  | text | comment _ | action _ | blockClose _ | loopControl _ | malformed _ => rfl

theorem unresolved_batchEdges :
    (TemplateGraph.ofEdges (batchEdges o files)).unresolved = danglingCalls o files := by
  rw [TemplateGraph.unresolved_ofEdges, danglingCalls]
  conv => lhs; arg 2; rw [batchEdges]
  rw [List.filterMap_flatMap]
  apply List.flatMap_congr
  intro f _
  rw [List.filterMap_filterMap]
  apply List.filterMap_congr
  intro n _
  exact bind_edge? o files f.name n

theorem edges_ofFiles :
    (Report.ofFiles o files).edges.map Edge.untyped = batchEdges o files := by
  unfold Report.ofFiles batchEdges
  dsimp only
  rw [List.flatMap_map, List.map_flatMap]
  apply List.flatMap_congr
  intro f _
  exact edges_check o { file := f.name, root := f.root } f.source

theorem kind_of_mem_danglingCalls {d : Diagnostic} (h : d ∈ danglingCalls o files) :
    d.kind = .unresolvedTemplateCall := by
  rw [← unresolved_batchEdges] at h
  obtain ⟨e, -, rfl⟩ := List.mem_map.1 h
  rfl

theorem danglingCalls_perm {files' : List SourceFile} (h : files.Perm files') :
    (danglingCalls o files).Perm (danglingCalls o files') := by
  have hdefined (name : String) :
      name ∈ batchDefinitions o files ↔ name ∈ batchDefinitions o files' :=
    (h.flatMap_right _).mem_iff
  have hdangling (file : String) : Node.dangling? file (batchDefinitions o files) =
      Node.dangling? file (batchDefinitions o files') := by
    funext n
    unfold Node.dangling?
    simp only [hdefined]
  unfold danglingCalls
  simp only [hdangling]
  exact h.flatMap_right _

end

def Report.unresolved (r : Report) : List Diagnostic :=
  r.diagnostics.filter (·.kind = .unresolvedTemplateCall)

theorem Report.unresolved_ofFiles (o : Options) (files : List SourceFile) :
    (ofFiles o files).unresolved.Perm (danglingCalls o files) := by
  let found := files.map fun f => check o { file := f.name, root := f.root } f.source
  have hgraph : (TemplateGraph.ofEdges (ofFiles o files).edges).unresolved =
      danglingCalls o files := by
    rw [← TemplateGraph.unresolved_untyped, edges_ofFiles, unresolved_batchEdges]
  have hsorted : (ofFiles o files).diagnostics.Perm
      (found.flatMap Findings.diagnostics ++ danglingCalls o files) := by
    rw [← hgraph]
    exact List.mergeSort_perm _ _
  have hfound : (found.flatMap Findings.diagnostics).filter
      (·.kind = .unresolvedTemplateCall) = [] := by
    rw [List.filter_eq_nil_iff]
    intro d hd
    obtain ⟨_, hmem, hd⟩ := List.mem_flatMap.1 hd
    obtain ⟨f, -, rfl⟩ := List.mem_map.1 hmem
    simpa using kind_ne_of_mem_check hd
  have hdangling : (danglingCalls o files).filter (·.kind = .unresolvedTemplateCall) =
      danglingCalls o files := by
    rw [List.filter_eq_self]
    intro d hd
    simpa using kind_of_mem_danglingCalls o files hd
  have hfilter := hsorted.filter (fun d => d.kind = .unresolvedTemplateCall)
  rwa [List.filter_append, hfound, hdangling, List.nil_append] at hfilter

theorem checkPaths_eq_ok {fs : FileSystem} {m : Manifest} {c : Config} {paths : List String}
    {report : Report} :
    checkPaths fs m c paths = .ok report ↔ ∃ found batch, discover fs c paths = .ok found ∧
      found ≠ [] ∧ found.mapM (loadSource fs m) = .ok batch ∧
        report = .ofFiles c.options batch := by
  constructor
  · intro h
    obtain ⟨found, hfound, h⟩ := bind_eq_ok.1 h
    split at h
    · cases h
    · next hnonempty =>
      obtain ⟨batch, hbatch, h⟩ := bind_eq_ok.1 h
      cases h
      exact ⟨found, batch, hfound, hnonempty, hbatch, rfl⟩
  · rintro ⟨found, batch, hfound, hnonempty, hbatch, rfl⟩
    refine bind_eq_ok.2 ⟨found, hfound, ?_⟩
    rw [if_neg hnonempty]
    exact bind_eq_ok.2 ⟨batch, hbatch, rfl⟩

/-- A batch is told of the calls whose names none of its files defines, of each once and where it
stands, and of no others, in whatever order its files come. This is what the report on the files
under some paths says. -/
theorem linking_is_exact (o : Options) (files : List SourceFile) :
    (Report.ofFiles o files).unresolved.Perm (danglingCalls o files) ∧
    (∀ files', files.Perm files' →
      (Report.ofFiles o files).unresolved.Perm (Report.ofFiles o files').unresolved) ∧
    ∀ fs m c paths report, checkPaths fs m c paths = .ok report →
      ∃ found batch, discover fs c paths = .ok found ∧ found.mapM (loadSource fs m) = .ok batch ∧
        report.files = batch.map SourceFile.name ∧
        report.unresolved.Perm (danglingCalls c.options batch) := by
  have hexact := Report.unresolved_ofFiles o
  refine ⟨hexact files, ?_, ?_⟩
  · intro files' hperm
    exact (hexact files).trans ((danglingCalls_perm o files hperm).trans (hexact files').symm)
  · intro fs m c paths report h
    obtain ⟨found, batch, hfound, -, hbatch, rfl⟩ := checkPaths_eq_ok.1 h
    exact ⟨found, batch, hfound, hbatch, rfl, Report.unresolved_ofFiles c.options batch⟩

theorem linking_is_exact_of_two_files :
    let a := Delimiters.wrap {} "template \"row\" ." ++ "\n" ++
      Delimiters.wrap {} "template \"gone\" .X"
    let b := Delimiters.actions {}
      ["range .Rows", "block \"row\" .", "end", "end", "template \"row\""]
    let fs : FileSystem :=
      { root := .directory [("a.tmpl", .file a.toUTF8), ("b.tmpl", .file b.toUTF8)] }
    let files : List SourceFile := [⟨"a.tmpl", .root [], a⟩, ⟨"b.tmpl", .root [], b⟩]
    let calls := danglingCalls {} files
    calls.map (fun d => (d.subject, d.file, d.pos)) = [("gone", "a.tmpl", ⟨2, 1⟩)] ∧
      (∃ report, checkPaths fs ⟨[], .empty⟩ {} ["a.tmpl", "b.tmpl"] = .ok report ∧
        report.unresolved.Perm calls) ∧
      (Report.ofFiles {} files).unresolved.Perm (Report.ofFiles {} files.reverse).unresolved := by
  intro a b fs files calls
  obtain ⟨-, horder, hpaths⟩ := linking_is_exact {} files
  have hunder : filesUnderAll fs {} ["a.tmpl", "b.tmpl"] = .ok ["a.tmpl", "b.tmpl"] := by
    decide +kernel
  have hsorted : ["a.tmpl", "b.tmpl"].mergeSort FilePath.le = ["a.tmpl", "b.tmpl"] :=
    List.mergeSort_of_pairwise (by decide +kernel)
  have hdiscover : discover fs {} ["a.tmpl", "b.tmpl"] = .ok ["a.tmpl", "b.tmpl"] := by
    refine bind_eq_ok.2 ⟨_, hunder, ?_⟩
    rw [hsorted]
    decide +kernel
  have hread : fs.read? "a.tmpl" = some a ∧ fs.read? "b.tmpl" = some b := by decide +kernel
  have hbatch : ["a.tmpl", "b.tmpl"].mapM (loadSource fs ⟨[], .empty⟩) = .ok files := by
    simp only [List.mapM_cons, loadSource, readText, hread]
    rfl
  obtain ⟨report, hreport⟩ : ∃ report,
      checkPaths fs ⟨[], .empty⟩ {} ["a.tmpl", "b.tmpl"] = .ok report :=
    ⟨_, checkPaths_eq_ok.2 ⟨_, files, hdiscover, by decide, hbatch, rfl⟩⟩
  obtain ⟨found, batch, hfound, hloaded, -, hperm⟩ := hpaths _ _ _ _ _ hreport
  cases hdiscover.symm.trans hfound
  cases hbatch.symm.trans hloaded
  have hoptions : ({} : Config).options = {} :=
    congrArg (fun funcs => ({ funcs } : Options)) (List.foldl_nil (b := FuncTable.builtins))
  rw [hoptions] at hperm
  exact ⟨by decide +kernel, ⟨report, hreport, hperm⟩, horder _ files.reverse_perm.symm⟩

end TemplateLint
