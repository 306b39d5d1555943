import FlowAtlas.Config.Yaml
import FlowAtlas.Proofs.Overlay
import FlowAtlas.Proofs.Results

/-! The values that files mean. However a mapping is written, and whatever is merged into it, it binds each of
its keys once. -/

namespace FlowAtlas

namespace Value
variable {key : Key} {v : Value} {f : Key × Value} {fields : List (Key × Value)}

def ProperFields (fields : List (Key × Value)) : Prop :=
  ∀ f ∈ fields, f.2.Proper

theorem ProperFields.append {more : List (Key × Value)} (hfields : ProperFields fields)
    (hmore : ProperFields more) : ProperFields (fields ++ more) := by
  intro f hf
  rcases List.mem_append.mp hf with hf | hf
  · exact hfields f hf
  · exact hmore f hf

theorem mem_setField (h : f ∈ setField key v fields) :
    f.1.identity = key.identity ∧ f.2 = v ∨ f ∈ fields := by
  induction fields with
  | nil =>
    rw [List.mem_singleton.mp h]
    exact .inl ⟨rfl, rfl⟩
  | cons g rest ih =>
    rw [setField] at h
    split at h
    · rcases List.mem_cons.mp h with rfl | hrest
      · exact .inl ⟨Key.same_iff.mp ‹_›, rfl⟩
      · exact .inr (List.mem_cons_of_mem _ hrest)
    · rcases List.mem_cons.mp h with rfl | hrest
      · exact .inr List.mem_cons_self
      · exact (ih hrest).imp id (List.mem_cons_of_mem _)

theorem distinct_setField (key : Key) (v : Value) (h : Distinct fields) :
    Distinct (setField key v fields) := by
  induction fields with
  | nil => exact List.pairwise_singleton _ _
  | cons g rest ih =>
    obtain ⟨hg, hrest⟩ := List.pairwise_cons.mp h
    rw [setField]
    split
    · exact List.pairwise_cons.mpr ⟨hg, hrest⟩
    · refine List.pairwise_cons.mpr ⟨fun f hf => ?_, ih hrest⟩
      rcases mem_setField hf with ⟨hkey, -⟩ | hf
      · rw [hkey]
        exact fun hsame => absurd (Key.same_iff.mpr hsame) ‹_›
      · exact hg f hf

theorem properFields_setField (hv : v.Proper) (h : ProperFields fields) :
    ProperFields (setField key v fields) := by
  intro f hf
  rcases mem_setField hf with ⟨-, rfl⟩ | hf
  · exact hv
  · exact h f hf

end Value

namespace Yaml
open Value
variable {α β γ : Type} {kind : Kind} {s : String} {v : Value} {fields : List (Key × Value)}

theorem Meaning.of_both {f : α → β → γ} {x : Meaning α} {y : Meaning β} {c : γ}
    (h : Meaning.both f x y = .ok c) : ∃ a b, x = .ok a ∧ y = .ok b ∧ f a b = c := by
  cases x with
  | error e => cases y <;> cases h
  | ok a =>
    cases y with
    | error e => cases h
    | ok b => exact ⟨a, b, rfl, rfl, Except.ok.inj h⟩

theorem proper_scalarValue (h : scalarValue kind s = .ok v) : v.Proper := by
  cases kind <;> first | cases h | obtain ⟨a, -, rfl⟩ := exists_of_map h
  all_goals exact .leaf rfl

theorem proper_ofExcept {depth : Nat} (h : Meaning.ofExcept depth (scalarValue kind s) = .ok v) :
    v.Proper :=
  proper_scalarValue (eq_ok_of_mapError h)

theorem proper_mappingOf (h : ProperFields fields) : (mappingOf fields).Proper := by
  have key : ∀ bound, Distinct bound → ProperFields bound →
      (map (fields.foldl (fun bound f => setField f.1 f.2 bound) bound)).Proper := by
    induction fields with
    | nil => exact fun bound => Proper.map
    | cons f rest ih =>
      intro bound hdistinct hvalues
      obtain ⟨hf, hrest⟩ := List.forall_mem_cons.mp h
      exact ih hrest _ (distinct_setField f.1 f.2 hdistinct) (properFields_setField hf hvalues)
  exact key [] .nil (List.forall_mem_nil _)

mutual

theorem proper_meaning (depth : Nat) (n : Node) (v : Value) (h : n.meaning depth = .ok v) : v.Proper :=
  match n with
  | .scalar kind s => proper_ofExcept h
  | .list kind items => by
    cases kind with
    | list | pairs =>
      obtain ⟨values, -, rfl⟩ := exists_of_map h
      exact .leaf rfl
    | _ => cases h
  | .map kind pairs => by
    have hown := properFields_own (depth + 1) pairs
    have hmerged := properFields_merged (depth + 1) pairs
    rw [Node.meaning] at h
    split at h
    · split at h
      · obtain ⟨fields, hboth, rfl⟩ := exists_of_map h
        obtain ⟨merged, own, hm, ho, rfl⟩ := Meaning.of_both hboth
        exact proper_mappingOf ((hmerged merged hm).append (hown own ho))
      · cases h
    · split at h
      · exact proper_ofExcept h
      · cases h
      · cases h

theorem properFields_own (depth : Nat) (pairs : List (Node × Node)) (fields : List (Key × Value))
    (h : ownMeaning depth pairs = .ok fields) : ProperFields fields :=
  match pairs with
  | [] => by
    cases h
    exact nofun
  | (key, value) :: rest => by
    have hvalue := proper_meaning depth value
    have hrest := properFields_own depth rest
    rw [ownMeaning] at h
    split at h
    · exact hrest fields h
    · obtain ⟨f, more, hf, hmore, rfl⟩ := Meaning.of_both h
      obtain ⟨k, v, -, hv, rfl⟩ := Meaning.of_both hf
      exact List.forall_mem_cons.mpr ⟨hvalue v hv, hrest more hmore⟩

theorem properFields_merged (depth : Nat) (pairs : List (Node × Node)) (fields : List (Key × Value))
    (h : mergedMeaning depth pairs = .ok fields) : ProperFields fields :=
  match pairs with
  | [] => by
    cases h
    exact nofun
  | (key, value) :: rest => by
    have hvalue := properFields_toMerge depth value
    have hrest := properFields_merged depth rest
    rw [mergedMeaning] at h
    split at h
    · obtain ⟨given, more, hgiven, hmore, rfl⟩ := Meaning.of_both h
      exact (hvalue given hgiven).append (hrest more hmore)
    · exact hrest fields h

theorem properFields_toMerge (depth : Nat) (n : Node) (fields : List (Key × Value))
    (h : n.fieldsToMerge depth = .ok fields) : ProperFields fields :=
  match n with
  | .map _ pairs => by
    have hown := properFields_own depth pairs
    have hmerged := properFields_merged depth pairs
    rw [Node.fieldsToMerge] at h
    obtain ⟨merged, own, hm, ho, rfl⟩ := Meaning.of_both h
    exact (hmerged merged hm).append (hown own ho)
  | .list _ items => properFields_lists depth items fields h
  | .scalar _ _ => nomatch h

theorem properFields_lists (depth : Nat) (items : List Node) (fields : List (Key × Value))
    (h : listsToMerge depth items = .ok fields) : ProperFields fields :=
  match items with
  | [] => by
    cases h
    exact nofun
  | n :: rest => by
    have hnode := properFields_toMerge depth n
    have hrest := properFields_lists depth rest
    rw [listsToMerge] at h
    obtain ⟨later, own, hlater, hown, rfl⟩ := Meaning.of_both h
    exact (hrest later hlater).append (hnode own hown)

end

theorem proper_value {source : Source} (h : source.value = .ok v) : v.Proper := by
  rw [Source.value] at h
  generalize Node.ofTokens (.ofSource source) = read at h
  rcases read with p | _ | root
  · cases h
  · cases h
    exact .leaf rfl
  · exact proper_meaning 0 root v (eq_ok_of_mapError h)

end Yaml

/-- What is relied on of a reader: each mapping binds a key once, and a text of which nothing can be decoded
stops it. -/
structure YamlReader.Lawful (reader : YamlReader) : Prop where
  proper : ∀ pieces failure v, reader pieces failure = .ok v → v.Proper
  stops : ∀ failure, reader [] (some failure) = .error (.fault (.undecodable failure))

theorem Yaml.lawful_reader : Yaml.reader.Lawful where
  proper _ _ _ h := proper_value h
  stops _ := rfl

theorem YamlReader.Lawful.proper_of_read {reader : YamlReader} (h : reader.Lawful) {bytes : List UInt8}
    {v : Value} (hread : reader.value? bytes = .ok (some v)) : v.Proper := by
  unfold value? at hread
  generalize Text.Stream.pieces bytes = stream at hread
  obtain ⟨pieces, failure⟩ := stream
  dsimp only at hread
  split at hread
  · rename_i w hvalue
    obtain rfl := Option.some.inj (Except.ok.inj hread)
    exact h.proper _ _ _ hvalue
  · cases hread
  · cases hread

end FlowAtlas
