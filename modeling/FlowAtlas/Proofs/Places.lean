import FlowAtlas.Proofs.Suppression

/-! The places of a syntax tree, each with the nodes above it. Without decisions, the outline of a tree
states the functions and the calls of its places, in preorder, each call with the nearest function
above it. -/

namespace FlowAtlas

/-- A node of a tree, with the nodes above it, the nearest first. -/
structure Place where
  node : SyntaxTree
  above : List SyntaxTree

namespace Grammar

mutual

/-- The places of a tree in preorder; what is hidden has none. -/
def places (g : Grammar) (src : Source) (above : List SyntaxTree) : SyntaxTree → List Place
  | .node info children =>
    let t := SyntaxTree.node info children
    if g.isHidden src t then [] else ⟨t, above⟩ :: placesAmong g src (t :: above) children

def placesAmong (g : Grammar) (src : Source) (above : List SyntaxTree) : List SyntaxTree → List Place
  | [] => []
  | t :: rest => places g src above t ++ placesAmong g src above rest

end

def enclosing (g : Grammar) (src : Source) : List SyntaxTree → Option String
  | [] => none
  | t :: above =>
    if g.isFunction t then some (g.functionName src above.head? t) else g.enclosing src above

def declared? (g : Grammar) (src : Source) (p : Place) : Option String :=
  if g.isFunction p.node then some (g.functionName src p.above.head? p.node) else none

def declaration? (g : Grammar) (src : Source) (p : Place) : Option (String × Nat) :=
  (g.declared? src p).map (·, p.node.info.row + 1)

def call? (g : Grammar) (src : Source) (p : Place) : Option (String × String) :=
  if g.isFunction p.node then none
  else (g.enclosing src p.above).bind fun f => (g.callee? src p.node).map (f, ·)

variable {g : Grammar} {src : Source}

theorem placesAmong_eq (above ts : List SyntaxTree) :
    g.placesAmong src above ts = ts.flatMap (g.places src above) := by
  induction ts with
  | nil => rw [placesAmong, List.flatMap_nil]
  | cons t rest ih => rw [placesAmong, ih, List.flatMap_cons]

theorem places_eq (above : List SyntaxTree) (t : SyntaxTree) :
    g.places src above t =
      if g.isHidden src t then []
      else ⟨t, above⟩ :: t.children.flatMap (g.places src (t :: above)) := by
  cases t
  simp only [places, placesAmong_eq, SyntaxTree.children]

theorem mem_places {above : List SyntaxTree} {t : SyntaxTree} {p : Place} :
    p ∈ g.places src above t ↔
      g.isHidden src t = false ∧
        (p = ⟨t, above⟩ ∨ ∃ c ∈ t.children, p ∈ g.places src (t :: above) c) := by
  rw [places_eq]
  split
  · simp [*]
  · simp [*]

theorem length_above_lt {above₀ : List SyntaxTree} {t : SyntaxTree} {p : Place}
    (h : p ∈ g.places src above₀ t) : p = ⟨t, above₀⟩ ∨ above₀.length < p.above.length := by
  induction hn : t.size using Nat.strongRecOn generalizing above₀ t with
  | _ n ih =>
    subst hn
    rcases (mem_places.mp h).2 with rfl | ⟨c, hc, h⟩
    · exact .inl rfl
    · right
      rcases ih _ (SyntaxTree.size_lt_of_mem_children hc) h rfl with rfl | hlt
      · exact Nat.lt_succ_self _
      · exact Nat.lt_of_succ_lt hlt

theorem parent_mem_places {above₀ : List SyntaxTree} {t c parent : SyntaxTree}
    {above : List SyntaxTree} (h : ⟨c, parent :: above⟩ ∈ g.places src above₀ t)
    (hbelow : above₀.length ≤ above.length) :
    ⟨parent, above⟩ ∈ g.places src above₀ t ∧ c ∈ parent.children := by
  induction hn : t.size using Nat.strongRecOn generalizing above₀ t with
  | _ n ih =>
    subst hn
    obtain ⟨hhidden, h⟩ := mem_places.mp h
    rcases h with heq | ⟨d, hd, h⟩
    · cases heq
      simp only [List.length_cons] at hbelow
      omega
    · rcases length_above_lt h with heq | hlt
      · cases heq
        exact ⟨mem_places.mpr ⟨hhidden, .inl rfl⟩, hd⟩
      · have hbelow' : (t :: above₀).length ≤ above.length := Nat.le_of_lt_succ hlt
        obtain ⟨hmem, hc⟩ := ih _ (SyntaxTree.size_lt_of_mem_children hd) h hbelow' rfl
        exact ⟨mem_places.mpr ⟨hhidden, .inr ⟨d, hd, hmem⟩⟩, hc⟩

theorem hidden_of_mem_places {above₀ : List SyntaxTree} {t : SyntaxTree} {p : Place}
    (h : p ∈ g.places src above₀ t) : g.isHidden src p.node = false := by
  induction hn : t.size using Nat.strongRecOn generalizing above₀ t with
  | _ n ih =>
    subst hn
    obtain ⟨hhidden, rfl | ⟨c, hc, h⟩⟩ := mem_places.mp h
    · exact hhidden
    · exact ih _ (SyntaxTree.size_lt_of_mem_children hc) h rfl

theorem calls_withCall (f callee : Option String) (below : Outline) :
    (withCall callee below).calls f =
      (f.bind fun f => callee.map (f, ·)).toList ++ below.calls f := by
  cases callee <;> cases f <;> rfl

theorem declarations_withCall (callee : Option String) (below : Outline) :
    (withCall callee below).declarations = below.declarations := by
  cases callee <;> rfl

/-- What adds up along a sequence, and what each node states of itself, the places of a tree state one
after the other. -/
theorem read_outline_true {β : Type} (read : Option String → Outline → List β)
    {stated : Place → Option β}
    (hconcat : ∀ f os, read f (.concat os) = os.flatMap (read f))
    (hfunction : ∀ above t body, g.isFunction t = true →
      read (g.enclosing src above)
          (.function (g.functionName src above.head? t) (t.info.row + 1) body .done) =
        (stated ⟨t, above⟩).toList ++ read (g.enclosing src (t :: above)) body)
    (hplain : ∀ above t below, g.isFunction t = false →
      read (g.enclosing src above) (withCall (g.callee? src t) below) =
        (stated ⟨t, above⟩).toList ++ read (g.enclosing src (t :: above)) below)
    (above : List SyntaxTree) (t : SyntaxTree) :
    read (g.enclosing src above) (g.outline src true above.head? t) =
      (g.places src above t).filterMap stated := by
  induction hn : t.size using Nat.strongRecOn generalizing above t with
  | _ n ih =>
    subst hn
    have hchildren : read (g.enclosing src (t :: above))
        (.concat (t.children.map (g.outline src true (some t)))) =
        (t.children.flatMap (g.places src (t :: above))).filterMap stated := by
      rw [hconcat, List.flatMap_map, List.filterMap_flatMap]
      refine List.flatMap_congr fun c hc => ?_
      exact ih _ (SyntaxTree.size_lt_of_mem_children hc) (t :: above) c rfl
    have hplace : (g.places src above t).filterMap stated =
        if g.isHidden src t then [] else (stated ⟨t, above⟩).toList ++
          (t.children.flatMap (g.places src (t :: above))).filterMap stated := by
      rw [places_eq]
      split
      · rfl
      · cases h : stated ⟨t, above⟩ <;> simp [h]
    rw [outline_eq, hplace, ← hchildren]
    split
    · exact hconcat (g.enclosing src above) []
    split
    · exact hfunction above t _ ‹_›
    · rename_i hnot
      simp only [shownConstruct?, if_true]
      exact hplain above t _ (Bool.not_eq_true _ ▸ hnot)

theorem calls_outline_true (above : List SyntaxTree) (t : SyntaxTree) :
    (g.outline src true above.head? t).calls (g.enclosing src above) =
      (g.places src above t).filterMap (g.call? src) := by
  refine read_outline_true (fun f o => o.calls f) Outline.calls_concat ?_ ?_ above t
  · intro above t body hfunction
    simp [Outline.calls, call?, enclosing, hfunction]
  · intro above t below hplain
    simp [calls_withCall, call?, enclosing, hplain]

theorem declarations_outline_true (above : List SyntaxTree) (t : SyntaxTree) :
    (g.outline src true above.head? t).declarations =
      (g.places src above t).filterMap (g.declaration? src) := by
  refine read_outline_true (fun _ o => o.declarations) (fun _ => Outline.declarations_concat)
    ?_ ?_ above t
  · intro above t body hfunction
    simp [Outline.declarations, declaration?, declared?, hfunction]
  · intro above t below hplain
    simp [declarations_withCall, declaration?, declared?, hplain]

theorem functions_outline_true (above : List SyntaxTree) (t : SyntaxTree) :
    (g.outline src true above.head? t).functions =
      (g.places src above t).filterMap (g.declared? src) := by
  rw [← Outline.map_fst_declarations, declarations_outline_true, List.map_filterMap]
  refine List.filterMap_congr fun p _ => ?_
  simp [declaration?, Function.comp_def]

end Grammar
end FlowAtlas
