import FlowAtlas.Proofs.Graph
import FlowAtlas.Trace
import Mathlib.Data.List.Chain
import Mathlib.Data.List.Nodup

/-! Tracing finds every path without repetition, and nothing else: the nodes and the steps of a trace
are those of the simple paths from its source to its sink. -/

namespace FlowAtlas.Graph

def Leads (g : Graph) (a b : NodeId) : Prop :=
  ∃ e ∈ g.edges a, e.target = b

/-- A path along edges that repeats no node. -/
structure SimplePath (g : Graph) (source sink : NodeId) (path : List NodeId) : Prop where
  head : path.head? = some source
  last : path.getLast? = some sink
  steps : path.IsChain g.Leads
  nodup : path.Nodup

/-- A simple path of at most `bound` edges that meets none of the nodes visited before. -/
structure FreshPath (g : Graph) (sink : NodeId) (bound : Nat) (visited : List NodeId)
    (source : NodeId) (path : List NodeId) : Prop extends g.SimplePath source sink path where
  fresh : ∀ id ∈ path, id ∉ visited
  short : path.length ≤ bound + 1

variable {g : Graph} {source sink : NodeId} {bound : Nat} {visited path : List NodeId}

theorem mem_successors {a b : NodeId} : b ∈ g.successors.findD a [] ↔ g.Leads a b := by
  unfold successors Table.findD Leads edges Table.findD
  rw [Table.find?_mapValues]
  cases g.find? a with
  | none => simp
  | some es => simp

theorem infix_pair_cons {a b c : NodeId} {rest : List NodeId} :
    [a, b] <:+: c :: rest ↔ a = c ∧ rest.head? = some b ∨ [a, b] <:+: rest := by
  rw [List.infix_cons_iff, List.cons_prefix_cons]
  cases rest with
  | nil => simp
  | cons d rest => simp [eq_comm]

theorem mem_iff_head_or_step {id : NodeId} :
    id ∈ path ↔ path.head? = some id ∨ ∃ a, [a, id] <:+: path := by
  induction path with
  | nil => simp
  | cons c rest ih =>
    simp only [List.mem_cons, ih, List.head?_cons, Option.some.injEq, infix_pair_cons, exists_or,
      exists_eq_left, eq_comm (a := c)]

theorem simplePath_singleton (g : Graph) (id : NodeId) : g.SimplePath id id [id] where
  head := rfl
  last := rfl
  steps := .singleton id
  nodup := List.nodup_singleton id

theorem SimplePath.eq_singleton (h : g.SimplePath sink sink path) : path = [sink] := by
  obtain ⟨hhead, hlast, _, hnodup⟩ := h
  cases path with
  | nil => cases hhead
  | cons a rest =>
    cases hhead
    cases rest with
    | nil => rfl
    | cons b rest =>
      rw [List.getLast?_cons_cons] at hlast
      exact absurd (List.mem_of_getLast? hlast) (List.nodup_cons.mp hnodup).1

theorem simplePath_iff_of_ne (hne : source ≠ sink) :
    g.SimplePath source sink path ↔ ∃ id rest, path = source :: rest ∧ g.Leads source id ∧
      source ∉ rest ∧ g.SimplePath id sink rest := by
  constructor
  · rintro ⟨hhead, hlast, hsteps, hnodup⟩
    cases path with
    | nil => cases hhead
    | cons a rest =>
      cases hhead
      obtain ⟨hsource, hnodup⟩ := List.nodup_cons.mp hnodup
      cases rest with
      | nil => exact absurd (Option.some.inj hlast) hne
      | cons id rest =>
        rw [List.getLast?_cons_cons] at hlast
        obtain ⟨hstep, hsteps⟩ := List.isChain_cons_cons.mp hsteps
        exact ⟨id, id :: rest, rfl, hstep, hsource, rfl, hlast, hsteps, hnodup⟩
  · rintro ⟨id, rest, rfl, hstep, hsource, hhead, hlast, hsteps, hnodup⟩
    cases rest with
    | nil => cases hhead
    | cons b rest =>
      cases hhead
      refine ⟨rfl, ?_, hsteps.cons_cons hstep, List.nodup_cons.mpr ⟨hsource, hnodup⟩⟩
      rw [List.getLast?_cons_cons]
      exact hlast

theorem SimplePath.concat {id : NodeId} (h : g.SimplePath source sink path) (hleads : g.Leads sink id)
    (hfresh : id ∉ path) : g.SimplePath source id (path ++ [id]) := by
  have hdisjoint : path.Disjoint [id] := fun a ha ha' => hfresh (List.mem_singleton.mp ha' ▸ ha)
  refine ⟨?_, List.getLast?_concat, ?_, h.nodup.append (List.nodup_singleton id) hdisjoint⟩
  · rw [List.head?_append, h.head]
    rfl
  · refine h.steps.append (.singleton id) fun a ha b hb => ?_
    rw [h.last] at ha
    cases ha
    cases hb
    exact hleads

theorem freshPath_sink_iff (hfresh : sink ∉ visited) :
    g.FreshPath sink bound visited sink path ↔ path = [sink] := by
  constructor
  · exact fun h => h.toSimplePath.eq_singleton
  · rintro rfl
    refine ⟨g.simplePath_singleton sink, ?_, Nat.le_add_left 1 bound⟩
    rintro id hid
    rwa [List.mem_singleton.mp hid]

theorem not_freshPath_zero (hne : source ≠ sink) : ¬ g.FreshPath sink 0 visited source path := by
  rintro ⟨hsimple, _, hshort⟩
  obtain ⟨id, rest, rfl, _, _, hrest⟩ := (simplePath_iff_of_ne hne).mp hsimple
  cases rest with
  | nil => cases hrest.head
  | cons b rest => simp at hshort

theorem freshPath_succ_iff (hne : source ≠ sink) (hfresh : source ∉ visited) :
    g.FreshPath sink (bound + 1) visited source path ↔ ∃ id rest, path = source :: rest ∧
      g.Leads source id ∧ id ∉ source :: visited ∧
      g.FreshPath sink bound (source :: visited) id rest := by
  constructor
  · rintro ⟨hsimple, hvisited, hshort⟩
    obtain ⟨id, rest, rfl, hstep, hsource, hrest⟩ := (simplePath_iff_of_ne hne).mp hsimple
    have hfresh' : ∀ b ∈ rest, b ∉ source :: visited := by
      intro b hb hmem
      rcases List.mem_cons.mp hmem with rfl | hmem
      · exact hsource hb
      · exact hvisited b (List.mem_cons_of_mem _ hb) hmem
    have hid : id ∈ rest := List.mem_of_head? hrest.head
    exact ⟨id, rest, rfl, hstep, hfresh' id hid, hrest, hfresh', Nat.le_of_succ_le_succ hshort⟩
  · rintro ⟨id, rest, rfl, hstep, hid, hrest, hfresh', hshort⟩
    have hsource : source ∉ rest := fun h => hfresh' source h List.mem_cons_self
    refine ⟨(simplePath_iff_of_ne hne).mpr ⟨id, rest, rfl, hstep, hsource, hrest⟩, ?_,
      Nat.succ_le_succ hshort⟩
    intro b hb hmem
    rcases List.mem_cons.mp hb with rfl | hb
    · exact hfresh hmem
    · exact hfresh' b hb (List.mem_cons_of_mem _ hmem)

/-- The steps of some paths, each once; none at all if there is no path. -/
structure Collects (found : Option (List (NodeId × NodeId))) (paths : List NodeId → Prop) :
    Prop where
  isSome_iff : found.isSome = true ↔ ∃ path, paths path
  mem_iff : ∀ steps ∈ found, ∀ a b, (a, b) ∈ steps ↔ ∃ path, paths path ∧ [a, b] <:+: path
  nodup : ∀ steps ∈ found, steps.Nodup

theorem collects_none {paths : List NodeId → Prop} (h : ∀ path, ¬ paths path) :
    Collects none paths where
  isSome_iff := by simpa using h
  mem_iff := by simp
  nodup := by simp

theorem collects_sink (hfresh : sink ∉ visited) :
    Collects (some []) (g.FreshPath sink bound visited sink) where
  isSome_iff := ⟨fun _ => ⟨[sink], (freshPath_sink_iff hfresh).mpr rfl⟩, fun _ => rfl⟩
  mem_iff := by
    rintro _ ⟨⟩ a b
    simp [freshPath_sink_iff hfresh, infix_pair_cons]
  nodup := by
    rintro _ ⟨⟩
    exact .nil

section Onward
variable {next : List NodeId} {found : NodeId → Option (List (NodeId × NodeId))}
  {paths : NodeId → List NodeId → Prop}

def Through (source : NodeId) (next : List NodeId) (paths : NodeId → List NodeId → Prop)
    (path : List NodeId) : Prop :=
  ∃ id ∈ next, ∃ rest, paths id rest ∧ path = source :: rest

def onward (source : NodeId) (next : List NodeId) (found : NodeId → Option (List (NodeId × NodeId))) :
    List (List (NodeId × NodeId)) :=
  next.filterMap fun id => (found id).map ((source, id) :: ·)

theorem mem_onward {steps : List (NodeId × NodeId)} :
    steps ∈ onward source next found ↔
      ∃ id ∈ next, ∃ below, found id = some below ∧ (source, id) :: below = steps := by
  simp only [onward, List.mem_filterMap, Option.map_eq_some_iff]

theorem Collects.exists_iff {id : NodeId} (h : Collects (found id) (paths id)) :
    (∃ below, found id = some below) ↔ ∃ rest, paths id rest := by
  rw [← h.isSome_iff, Option.isSome_iff_exists]

theorem onward_ne_nil_iff (hfound : ∀ id ∈ next, Collects (found id) (paths id)) :
    onward source next found ≠ [] ↔ ∃ path, Through source next paths path := by
  constructor
  · intro hne
    obtain ⟨steps, hsteps⟩ := List.exists_mem_of_ne_nil _ hne
    obtain ⟨id, hid, below, hbelow, _⟩ := mem_onward.mp hsteps
    obtain ⟨rest, hrest⟩ := (hfound id hid).exists_iff.mp ⟨below, hbelow⟩
    exact ⟨_, id, hid, rest, hrest, rfl⟩
  · rintro ⟨_, id, hid, rest, hrest, rfl⟩
    obtain ⟨below, hbelow⟩ := (hfound id hid).exists_iff.mpr ⟨rest, hrest⟩
    exact List.ne_nil_of_mem (mem_onward.mpr ⟨id, hid, below, hbelow, rfl⟩)

theorem mem_flatten_onward (hfound : ∀ id ∈ next, Collects (found id) (paths id))
    (hhead : ∀ id rest, paths id rest → rest.head? = some id) {a b : NodeId} :
    (a, b) ∈ (onward source next found).flatten ↔
      ∃ path, Through source next paths path ∧ [a, b] <:+: path := by
  rw [List.mem_flatten]
  constructor
  · rintro ⟨steps, hsteps, hab⟩
    obtain ⟨id, hid, below, hbelow, rfl⟩ := mem_onward.mp hsteps
    rcases List.mem_cons.mp hab with heq | hab
    · cases heq
      obtain ⟨rest, hrest⟩ := (hfound b hid).exists_iff.mp ⟨below, hbelow⟩
      exact ⟨_, ⟨b, hid, rest, hrest, rfl⟩, infix_pair_cons.mpr (.inl ⟨rfl, hhead b rest hrest⟩)⟩
    · obtain ⟨rest, hrest, hinfix⟩ := ((hfound id hid).mem_iff below hbelow a b).mp hab
      exact ⟨_, ⟨id, hid, rest, hrest, rfl⟩, infix_pair_cons.mpr (.inr hinfix)⟩
  · rintro ⟨_, ⟨id, hid, rest, hrest, rfl⟩, hinfix⟩
    obtain ⟨below, hbelow⟩ := (hfound id hid).exists_iff.mpr ⟨rest, hrest⟩
    refine ⟨_, mem_onward.mpr ⟨id, hid, below, hbelow, rfl⟩, ?_⟩
    rcases infix_pair_cons.mp hinfix with ⟨rfl, hb⟩ | hinfix
    · rw [hhead id rest hrest] at hb
      cases hb
      exact List.mem_cons_self
    · have hlater := ((hfound id hid).mem_iff below hbelow a b).mpr ⟨rest, hrest, hinfix⟩
      exact List.mem_cons_of_mem _ hlater

theorem collects_onward (hfound : ∀ id ∈ next, Collects (found id) (paths id))
    (hhead : ∀ id rest, paths id rest → rest.head? = some id) :
    Collects (if (onward source next found).isEmpty then none
      else some (onward source next found).flatten.eraseDups) (Through source next paths) := by
  have hne : onward source next found ≠ [] ↔ ∃ path, Through source next paths path :=
    onward_ne_nil_iff hfound
  by_cases hempty : onward source next found = []
  · rw [if_pos (List.isEmpty_iff.mpr hempty)]
    exact collects_none fun path hpath => hne.mpr ⟨path, hpath⟩ hempty
  · rw [if_neg (mt List.isEmpty_iff.mp hempty)]
    refine ⟨⟨fun _ => hne.mp hempty, fun _ => rfl⟩, ?_, ?_⟩
    · rintro _ ⟨⟩ a b
      rw [List.mem_eraseDups]
      exact mem_flatten_onward hfound hhead
    · rintro _ ⟨⟩
      exact nodup_eraseDups _

end Onward

theorem freshPath_succ (hne : source ≠ sink) (hfresh : source ∉ visited) :
    g.FreshPath sink (bound + 1) visited source =
      Through source ((g.successors.findD source []).filter (· ∉ source :: visited))
        (g.FreshPath sink bound (source :: visited)) := by
  funext path
  rw [freshPath_succ_iff hne hfresh]
  simp only [Through, List.mem_filter, mem_successors, decide_eq_true_eq, eq_iff_iff]
  constructor
  · rintro ⟨id, rest, hpath, hleads, hid, hrest⟩
    exact ⟨id, ⟨hleads, hid⟩, rest, hrest, hpath⟩
  · rintro ⟨id, ⟨hleads, hid⟩, rest, hrest, hpath⟩
    exact ⟨id, rest, hpath, hleads, hid, hrest⟩

theorem collects_tracedEdges? (hfresh : source ∉ visited) :
    Collects (tracedEdges? g.successors sink bound visited source)
      (g.FreshPath sink bound visited source) := by
  induction bound generalizing source visited with
  | zero =>
    unfold tracedEdges?
    split
    · rename_i heq
      subst heq
      exact collects_sink hfresh
    · rename_i hne
      exact collects_none fun path => not_freshPath_zero hne
  | succ bound ih =>
    unfold tracedEdges?
    split
    · rename_i heq
      subst heq
      exact collects_sink hfresh
    · rename_i hne
      -- The source joins the visited nodes, so the steps below never come back to it.
      rw [freshPath_succ hne hfresh]
      refine collects_onward (fun id hid => ih ?_) fun id rest h => h.head
      simpa using (List.mem_filter.mp hid).2

theorem mem_nodeIds_of_isChain {a : NodeId} {rest : List NodeId}
    (h : (a :: rest).IsChain g.Leads) : rest ⊆ g.nodeIds := by
  induction rest generalizing a with
  | nil => exact List.nil_subset _
  | cons b rest ih =>
    obtain ⟨⟨e, he, htarget⟩, hsteps⟩ := List.isChain_cons_cons.mp h
    refine List.cons_subset.mpr ⟨?_, ih hsteps⟩
    exact mem_nodeIds.mpr (mem_mentioned.mpr (.inr ⟨a, e, he, htarget⟩))

theorem SimplePath.length_le (h : g.SimplePath source sink path) :
    path.length ≤ g.nodeIds.length + 1 := by
  obtain ⟨hhead, _, hsteps, hnodup⟩ := h
  cases path with
  | nil => cases hhead
  | cons a rest =>
    have hrest : rest.Nodup := (List.nodup_cons.mp hnodup).2
    exact Nat.succ_le_succ (hrest.length_le_of_subset (mem_nodeIds_of_isChain hsteps))

/-- The bound of a trace leaves no path out. -/
theorem freshPath_nodeIds :
    g.FreshPath sink g.nodeIds.length [] source path ↔ g.SimplePath source sink path :=
  ⟨fun h => h.toSimplePath, fun h => ⟨h, fun _ _ => List.not_mem_nil, h.length_le⟩⟩

theorem collects_simplePaths (g : Graph) (source sink : NodeId) :
    Collects (tracedEdges? g.successors sink g.nodeIds.length [] source)
      (g.SimplePath source sink) := by
  have hpaths : g.FreshPath sink g.nodeIds.length [] source = g.SimplePath source sink :=
    funext fun path => propext freshPath_nodeIds
  rw [← hpaths]
  exact collects_tracedEdges? List.not_mem_nil

theorem tracedPaths_cases (g : Graph) (source sink : NodeId) :
    (∀ path, ¬ g.SimplePath source sink path) ∧ g.tracedPaths source sink = .failed "" ∨
      ∃ steps, Collects (some steps) (g.SimplePath source sink) ∧
        g.tracedPaths source sink = .ofEdges source steps "Trace: Path found and highlighted" := by
  have hcollects := g.collects_simplePaths source sink
  unfold tracedPaths
  cases hfound : tracedEdges? g.successors sink g.nodeIds.length [] source with
  | none =>
    rw [hfound] at hcollects
    refine .inl ⟨fun path hpath => ?_, rfl⟩
    cases hcollects.isSome_iff.mpr ⟨path, hpath⟩
  | some steps =>
    rw [hfound] at hcollects
    exact .inr ⟨steps, hcollects, rfl⟩

theorem mem_nodes_ofEdges {id : NodeId} {steps : List (NodeId × NodeId)} {status : String} :
    id ∈ (Trace.ofEdges source steps status).nodes ↔ id = source ∨ ∃ a, (a, id) ∈ steps := by
  simp [Trace.ofEdges]

theorem mem_nodes_tracedPaths {id : NodeId} :
    id ∈ (g.tracedPaths source sink).nodes ↔ ∃ path, g.SimplePath source sink path ∧ id ∈ path := by
  rcases g.tracedPaths_cases source sink with ⟨hnone, htrace⟩ | ⟨steps, hcollects, htrace⟩
  · rw [htrace]
    refine iff_of_false List.not_mem_nil ?_
    rintro ⟨path, hpath, _⟩
    exact hnone path hpath
  · rw [htrace, mem_nodes_ofEdges]
    simp only [hcollects.mem_iff steps rfl]
    constructor
    · rintro (rfl | ⟨a, path, hpath, hinfix⟩)
      · obtain ⟨path, hpath⟩ := hcollects.isSome_iff.mp rfl
        exact ⟨path, hpath, List.mem_of_head? hpath.head⟩
      · exact ⟨path, hpath, mem_iff_head_or_step.mpr (.inr ⟨a, hinfix⟩)⟩
    · rintro ⟨path, hpath, hid⟩
      rcases mem_iff_head_or_step.mp hid with hhead | ⟨a, hinfix⟩
      · rw [hpath.head] at hhead
        exact .inl (Option.some.inj hhead).symm
      · exact .inr ⟨a, path, hpath, hinfix⟩

theorem mem_edges_tracedPaths {a b : NodeId} :
    (a, b) ∈ (g.tracedPaths source sink).edges ↔
      ∃ path, g.SimplePath source sink path ∧ [a, b] <:+: path := by
  rcases g.tracedPaths_cases source sink with ⟨hnone, htrace⟩ | ⟨steps, hcollects, htrace⟩
  · rw [htrace]
    refine iff_of_false List.not_mem_nil ?_
    rintro ⟨path, hpath, _⟩
    exact hnone path hpath
  · rw [htrace, ← hcollects.mem_iff steps rfl]
    exact List.mem_mergeSort

theorem nodup_nodes_tracedPaths (g : Graph) (source sink : NodeId) :
    (g.tracedPaths source sink).nodes.Nodup := by
  rcases g.tracedPaths_cases source sink with ⟨_, htrace⟩ | ⟨steps, _, htrace⟩
  · rw [htrace]
    exact .nil
  · rw [htrace]
    exact (sortTexts_perm _).nodup_iff.mpr (nodup_eraseDups _)

theorem nodup_edges_tracedPaths (g : Graph) (source sink : NodeId) :
    (g.tracedPaths source sink).edges.Nodup := by
  rcases g.tracedPaths_cases source sink with ⟨_, htrace⟩ | ⟨steps, hcollects, htrace⟩
  · rw [htrace]
    exact .nil
  · rw [htrace]
    exact (List.mergeSort_perm steps _).nodup_iff.mpr (hcollects.nodup steps rfl)

theorem exists_simplePath_iff :
    (∃ path, g.SimplePath source sink path) ↔ Relation.ReflTransGen g.Leads source sink := by
  constructor
  · rintro ⟨path, hhead, hlast, hsteps, _⟩
    cases path with
    | nil => cases hhead
    | cons a rest =>
      cases hhead
      have hreach := List.relationReflTransGen_of_exists_isChain _ hsteps (List.cons_ne_nil source rest)
      rwa [List.head_cons, List.getLast_of_getLast?_eq_some hlast] at hreach
  · intro hreach
    induction hreach using Relation.ReflTransGen.head_induction_on with
    | refl => exact ⟨[sink], g.simplePath_singleton sink⟩
    | @head a b hleads _ ih =>
      obtain ⟨path, hhead, hlast, hsteps, hnodup⟩ := ih
      by_cases ha : a ∈ path
      · -- The walk comes back to `a`: go on from there at once.
        obtain ⟨before, rest, rfl⟩ := List.append_of_mem ha
        refine ⟨a :: rest, rfl, ?_, hsteps.right_of_append, (List.nodup_append.mp hnodup).2.1⟩
        rwa [List.getLast?_append_of_ne_nil _ (List.cons_ne_nil a rest)] at hlast
      · cases path with
        | nil => cases hhead
        | cons c rest =>
          cases hhead
          refine ⟨a :: b :: rest, rfl, ?_, hsteps.cons_cons hleads, List.nodup_cons.mpr ⟨ha, hnodup⟩⟩
          rwa [List.getLast?_cons_cons]

theorem tracedPaths_eq_nil_iff :
    (g.tracedPaths source sink).nodes = [] ∧ (g.tracedPaths source sink).edges = [] ↔
      ¬ Relation.ReflTransGen g.Leads source sink := by
  rw [← exists_simplePath_iff]
  constructor
  · rintro ⟨hnodes, _⟩ ⟨path, hpath⟩
    have hsource := mem_nodes_tracedPaths.mpr ⟨path, hpath, List.mem_of_head? hpath.head⟩
    rw [hnodes] at hsource
    cases hsource
  · intro hnone
    refine ⟨List.eq_nil_iff_forall_not_mem.mpr ?_, List.eq_nil_iff_forall_not_mem.mpr ?_⟩
    · intro id hid
      obtain ⟨path, hpath, _⟩ := mem_nodes_tracedPaths.mp hid
      exact hnone ⟨path, hpath⟩
    · rintro ⟨a, b⟩ hab
      obtain ⟨path, hpath, _⟩ := mem_edges_tracedPaths.mp hab
      exact hnone ⟨path, hpath⟩

theorem tracedPaths_self (g : Graph) (id : NodeId) :
    (g.tracedPaths id id).nodes = [id] ∧ (g.tracedPaths id id).edges = [] := by
  have hedges : tracedEdges? g.successors id g.nodeIds.length [] id = some [] := by
    unfold tracedEdges?
    split <;> simp
  simp [tracedPaths, hedges, Trace.ofEdges, List.eraseDups_cons, sortTexts]

/-- A trace shows the nodes and the steps of the simple paths from its source to its sink, each once
and nothing else. It is empty exactly if no walk leads to the sink; from a node to itself it is this
node alone. -/
theorem tracedPaths_exact (g : Graph) (source sink : NodeId) :
    (∀ id, id ∈ (g.tracedPaths source sink).nodes ↔
      ∃ path, g.SimplePath source sink path ∧ id ∈ path) ∧
    (∀ a b, (a, b) ∈ (g.tracedPaths source sink).edges ↔
      ∃ path, g.SimplePath source sink path ∧ [a, b] <:+: path) ∧
    (g.tracedPaths source sink).nodes.Nodup ∧ (g.tracedPaths source sink).edges.Nodup ∧
    ((g.tracedPaths source sink).nodes = [] ∧ (g.tracedPaths source sink).edges = [] ↔
      ¬ Relation.ReflTransGen g.Leads source sink) ∧
    (g.tracedPaths source source).nodes = [source] ∧ (g.tracedPaths source source).edges = [] :=
  ⟨fun _ => mem_nodes_tracedPaths, fun _ _ => mem_edges_tracedPaths,
    g.nodup_nodes_tracedPaths source sink, g.nodup_edges_tracedPaths source sink,
    tracedPaths_eq_nil_iff, g.tracedPaths_self source⟩

end FlowAtlas.Graph
