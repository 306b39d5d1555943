import FlowAtlas.Config.Load
import FlowAtlas.Proofs.FileLookup
import FlowAtlas.Proofs.ReadValues
import FlowAtlas.Proofs.TextStream

/-! Which files settings can be made of. A file that means no mapping, or nothing at all, leaves the
defaults. A mapping is laid over them, and settings can be made of the result if and only if no section of
the mapping, and no value in it that is read further, is of the wrong kind. A file that is no UTF-8 is not
made good. -/

namespace FlowAtlas

namespace Value
variable {v : Value} {o : Option Value}

def isSingle : Value → Bool
  | list _ | map _ => false
  | _ => true

def listsNames : Value → Bool
  | list items => items.all isSingle
  | map _ | text _ => true
  | v => !v.isTrue

def givesLength : Value → Bool
  | bool _ | float _ => true
  | int n => (ofWhole? n).isSome
  | text s => (Text.float? s).isSome
  | _ => false

def sectionNames : List String :=
  ["general", "crawler", "watcher"]

/-- Each section of a configuration is a mapping, and what is read in it is of the right kind. -/
structure Usable (v : Value) : Prop where
  sections : ∀ name ∈ sectionNames, ∀ x ∈ v.at? [.text name], x.isMap = true
  ignored : ∀ x ∈ v.at? ["crawler", "extra_ignored_dirs"], x.listsNames = true
  debounce : ∀ x ∈ v.at? ["watcher", "debounce_seconds"], x.givesLength = true

theorem exists_nameOf_iff : (∃ name, v.nameOf = .ok name) ↔ v.isSingle = true := by
  cases v with
  | list _ | map _ => exact iff_of_false nofun nofun
  | _ => exact iff_of_true ⟨_, rfl⟩ rfl

theorem exists_names_iff : (∃ names, v.names = .ok names) ↔ v.listsNames = true := by
  unfold names
  by_cases htrue : v.isTrue = true
  · rw [if_pos htrue]
    cases v with
    | list items =>
      rw [exists_map_iff, exists_mapM_iff, listsNames, List.all_eq_true]
      exact forall₂_congr fun _ _ => exists_nameOf_iff
    | map _ | text _ => exact iff_of_true ⟨_, rfl⟩ rfl
    | _ => exact iff_of_false nofun (by simp [listsNames, htrue])
  · rw [if_neg htrue]
    refine iff_of_true ⟨[], rfl⟩ ?_
    cases v with
    | list items =>
      have hempty : items = [] := by simpa [isTrue] using htrue
      rw [hempty]
      rfl
    | map _ | text _ => rfl
    | _ => simp [listsNames, htrue]

theorem exists_names_getD_iff :
    (∃ names, (o.getD null).names = .ok names) ↔ ∀ x ∈ o, x.listsNames = true := by
  cases o with
  | none => exact iff_of_true ⟨[], rfl⟩ nofun
  | some x => simpa using exists_names_iff

theorem exists_toFloat_iff : (∃ x, v.toFloat = .ok x) ↔ v.givesLength = true := by
  cases v with
  | bool _ | float _ => exact iff_of_true ⟨_, rfl⟩ rfl
  | int n =>
    rw [toFloat, givesLength]
    cases ofWhole? n with
    | none => exact iff_of_false nofun nofun
    | some x => exact iff_of_true ⟨x, rfl⟩ rfl
  | text s =>
    rw [toFloat, givesLength]
    cases Text.float? s with
    | none => exact iff_of_false nofun nofun
    | some x => exact iff_of_true ⟨x, rfl⟩ rfl
  | _ => exact iff_of_false nofun nofun

theorem get?_eq (key : Key) (hv : v.isMap = true) : v.get? key = .ok (v.at? [key]) := by
  cases v with
  | map fields =>
    rw [get?, at?_cons]
    cases fieldOf? key fields <;> rfl
  | _ => cases hv

theorem exists_get?_iff {key : Key} : (∃ found, v.get? key = .ok found) ↔ v.isMap = true := by
  refine ⟨?_, fun hv => ⟨_, get?_eq key hv⟩⟩
  rintro ⟨found, h⟩
  cases v with
  | map fields => rfl
  | _ => cases h

/-- The section of a configuration; empty if it is left out. -/
def sectionAt (v : Value) (name : String) : Value :=
  (v.at? [.text name]).getD (map [])

theorem sectionOf_eq (name : String) (hv : v.isMap = true) :
    Settings.sectionOf v name = .ok (v.sectionAt name) := by
  rw [Settings.sectionOf, get?_eq _ hv]
  rfl

theorem isMap_sectionAt_iff {name : String} :
    (v.sectionAt name).isMap = true ↔ ∀ x ∈ v.at? [.text name], x.isMap = true := by
  unfold sectionAt
  cases v.at? [.text name] with
  | none => exact iff_of_true rfl nofun
  | some x => simp

theorem at?_sectionAt (v : Value) (name : String) (key : Key) :
    (v.sectionAt name).at? [key] = v.at? [.text name, key] := by
  cases v with
  | map fields =>
    rw [sectionAt, at?_cons, at?_cons]
    cases fieldOf? (.text name) fields <;> rfl
  | _ => rfl

theorem exists_ofConfig_iff (hv : v.isMap = true) :
    (∃ settings, Settings.ofConfig v = .ok settings) ↔ v.Usable := by
  have hsection : ∀ {name w}, Settings.sectionOf v name = .ok w ↔ v.sectionAt name = w := by
    intro name w
    rw [sectionOf_eq name hv, Except.ok.injEq]
  unfold Settings.ofConfig
  simp only [exists_bind_iff, hsection, exists_eq_left']
  constructor
  · rintro ⟨verbose, hverbose, extra, hextra, ignored, hignored, enabled, henabled, debounce, hdebounce,
      hrest⟩
    have hgeneral := exists_get?_iff.mp ⟨verbose, hverbose⟩
    have hcrawler := exists_get?_iff.mp ⟨extra, hextra⟩
    have hwatcher := exists_get?_iff.mp ⟨enabled, henabled⟩
    rw [get?_eq _ hcrawler, at?_sectionAt] at hextra
    rw [get?_eq _ hwatcher, at?_sectionAt] at hdebounce
    obtain rfl := Except.ok.inj hextra
    obtain rfl := Except.ok.inj hdebounce
    refine ⟨fun name hname => isMap_sectionAt_iff.mp ?_, exists_names_getD_iff.mp ⟨ignored, hignored⟩,
      fun x hx => ?_⟩
    · simp only [sectionNames, List.mem_cons, List.not_mem_nil, or_false] at hname
      rcases hname with rfl | rfl | rfl
      · exact hgeneral
      · exact hcrawler
      · exact hwatcher
    · rw [Option.mem_def.mp hx] at hrest
      obtain ⟨seconds, hseconds, -⟩ := exists_bind_iff.mp hrest
      exact exists_toFloat_iff.mp ⟨seconds, hseconds⟩
  · rintro ⟨hsections, hignored, hdebounce⟩
    have hmap : ∀ name ∈ sectionNames, (v.sectionAt name).isMap = true :=
      fun name hname => isMap_sectionAt_iff.mpr (hsections name hname)
    have hgeneral := get?_eq "verbose" (hmap "general" (by decide))
    have hcrawler := get?_eq "extra_ignored_dirs" (hmap "crawler" (by decide))
    have henabled := get?_eq "enabled" (hmap "watcher" (by decide))
    have hwatcher := get?_eq "debounce_seconds" (hmap "watcher" (by decide))
    rw [at?_sectionAt] at hcrawler hwatcher
    obtain ⟨names, hnames⟩ := exists_names_getD_iff.mpr hignored
    refine ⟨_, hgeneral, _, hcrawler, names, hnames, _, henabled, _, hwatcher, ?_⟩
    cases hfound : v.at? ["watcher", "debounce_seconds"] with
    | none => exact ⟨_, rfl⟩
    | some x =>
      obtain ⟨seconds, hseconds⟩ := exists_toFloat_iff.mpr (hdebounce x hfound)
      exact exists_bind_iff.mpr ⟨seconds, hseconds, _, rfl⟩

theorem usable_defaults : defaults.Usable where
  sections := by
    intro name hname x hx
    simp only [sectionNames, List.mem_cons, List.not_mem_nil, or_false] at hname
    rcases hname with rfl | rfl | rfl <;> cases hx <;> rfl
  ignored := by
    intro x hx
    cases hx
    rfl
  debounce := by
    intro x hx
    cases hx
    rfl

theorem usable_of_not_map (hv : v.isMap = false) : v.Usable := by
  have hnone : ∀ key path, v.at? (key :: path) = none := by
    intro key path
    cases v with
    | map fields => cases hv
    | _ => rfl
  constructor <;> simp [hnone]

theorem sections_overlay_iff (hv : v.Proper) {name : String} (hname : name ∈ sectionNames) :
    (∀ y ∈ (overlay (some defaults) v).at? [.text name], y.isMap = true) ↔
      ∀ x ∈ v.at? [.text name], x.isMap = true :=
  forall_at?_overlay_iff hv (usable_defaults.sections name hname) fun x => by rw [isMap_overlay]

/-- Laid over the defaults, a mapping is as usable as by itself. -/
theorem usable_overlay_iff (hv : v.Proper) : (overlay (some defaults) v).Usable ↔ v.Usable := by
  have hignored : (∀ y ∈ (overlay (some defaults) v).at? ["crawler", "extra_ignored_dirs"],
      y.listsNames = true) ↔ ∀ x ∈ v.at? ["crawler", "extra_ignored_dirs"], x.listsNames = true :=
    forall_at?_overlay_leaf_iff hv fun b hb => ⟨by cases hb; rfl, usable_defaults.ignored b hb⟩
  have hdebounce : (∀ y ∈ (overlay (some defaults) v).at? ["watcher", "debounce_seconds"],
      y.givesLength = true) ↔ ∀ x ∈ v.at? ["watcher", "debounce_seconds"], x.givesLength = true :=
    forall_at?_overlay_leaf_iff hv fun b hb => ⟨by cases hb; rfl, usable_defaults.debounce b hb⟩
  constructor
  · rintro ⟨h₁, h₂, h₃⟩
    exact ⟨fun name hname => (sections_overlay_iff hv hname).mp (h₁ name hname), hignored.mp h₂,
      hdebounce.mp h₃⟩
  · rintro ⟨h₁, h₂, h₃⟩
    exact ⟨fun name hname => (sections_overlay_iff hv hname).mpr (h₁ name hname), hignored.mpr h₂,
      hdebounce.mpr h₃⟩

end Value

namespace YamlReader
open Text
variable {reader : YamlReader} {bytes : List UInt8}

def found : Except Yaml.Problem Value → Except Fault (Option Value)
  | .ok v => .ok (some v)
  | .error (.fault f) => .error f
  | .error _ => .ok none

theorem value?_eq {pieces : List (List Char)} {failure : Option Utf8.Failure}
    (h : Stream.pieces bytes = (pieces, failure)) (reader : YamlReader) :
    reader.value? bytes = found (reader pieces failure) := by
  unfold value?
  rw [h]
  dsimp only
  generalize reader pieces failure = result
  rcases result with (_ | _ | f) | v <;> rfl

theorem exists_found_iff {result : Except Yaml.Problem Value} :
    (∃ read, found result = .ok read) ↔ ∀ f, result ≠ .error (.fault f) := by
  cases result with
  | ok v => exact iff_of_true ⟨some v, rfl⟩ nofun
  | error p =>
    cases p with
    | fault f => exact iff_of_false nofun fun hne => hne f rfl
    | _ => exact iff_of_true ⟨none, rfl⟩ nofun

theorem exists_value?_iff {s : String} (h : Utf8.decode bytes = .ok s) (reader : YamlReader) :
    ∃ pieces, pieces.flatten = unifyBreaks s.toList ∧
      ((∃ read, reader.value? bytes = .ok read) ↔ ∀ f, reader pieces none ≠ .error (.fault f)) := by
  obtain ⟨pieces, hpieces, htext⟩ := Stream.pieces_of_decode h
  refine ⟨pieces, htext, ?_⟩
  rw [value?_eq hpieces]
  exact exists_found_iff

theorem Lawful.value?_of_undecodable (hreader : reader.Lawful) (h : ∀ s, Utf8.decode bytes ≠ .ok s)
    (hshort : bytes.length < Intake.pieceSize) :
    ∃ f, reader.value? bytes = .error (.undecodable f) := by
  obtain ⟨pieces, f, hpieces, hnil⟩ := Stream.pieces_of_undecodable h
  rw [hnil hshort] at hpieces
  refine ⟨f, ?_⟩
  rw [value?_eq hpieces, hreader.stops]
  rfl

theorem value?_of_short {s : String} {v : Value} (h : Utf8.decode bytes = .ok s)
    (hshort : bytes.length < Intake.pieceSize) (hs : unifyBreaks s.toList ≠ [])
    (hvalue : reader [unifyBreaks s.toList] none = .ok v) : reader.value? bytes = .ok (some v) := by
  rw [value?_eq (Stream.pieces_of_short h hshort hs), hvalue]
  rfl

end YamlReader

namespace LoadedConfig
open Value
variable {env : Environment} {asked : Option Path} {verbose : Bool} {name : String} {read : Option Value}
  {loaded : LoadedConfig} {c : Candidate} {bytes : List UInt8}

def configOf : Option Value → Value
  | some (.map fields) => overlay (some .defaults) (.map fields)
  | _ => .defaults

theorem isMap_configOf (read : Option Value) : (configOf read).isMap = true := by
  rcases read with _ | v
  · rfl
  · cases v with
    | map fields => exact isMap_overlay _ _
    | _ => rfl

theorem usable_configOf_iff (h : ∀ v ∈ read, v.Proper) : (configOf read).Usable ↔ ∀ v ∈ read, v.Usable := by
  rcases read with _ | v
  · exact iff_of_true usable_defaults nofun
  · have hconfig : (configOf (some v)).Usable ↔ v.Usable := by
      cases v with
      | map fields => exact usable_overlay_iff (h _ rfl)
      | _ => exact iff_of_true usable_defaults (usable_of_not_map rfl)
    simpa using hconfig

def warnings (name : String) : Option Value → List String
  | none =>
    ["ConfigLoader Warning: Error parsing YAML config file " ++ name ++ ": <yaml error>. Using defaults."]
  | some (.map _) | some .null => []
  | some _ => ["ConfigLoader Warning: " ++ name ++ " does not contain a mapping. Using defaults."]

theorem ofRead_some (name : String) (verbose : Bool) (v : Value) :
    ofRead name verbose (some v) =
      (if verbose then .ok true else asksVerbose (configOf (some v))).map fun told =>
        ⟨configOf (some v), warnings name (some v) ++
          if told then ["ConfigLoader: Loaded configuration from " ++ name] else []⟩ := by
  cases verbose <;> cases v <;> rfl

theorem exists_asksVerbose_iff {v : Value} (hv : v.isMap = true) :
    (∃ told, asksVerbose v = .ok told) ↔ ∀ x ∈ v.at? [.text "general"], x.isMap = true := by
  cases v with
  | map fields =>
    have hgeneral : (fieldOf? "general" fields).getD (.map []) = (map fields).sectionAt "general" := by
      rw [sectionAt, at?_cons]
      cases fieldOf? "general" fields <;> rfl
    rw [asksVerbose, hgeneral, exists_map_iff, exists_get?_iff, isMap_sectionAt_iff]
  | _ => cases hv

theorem exists_ofRead_iff (h : ∀ v ∈ read, v.Proper) :
    (∃ loaded, ofRead name verbose read = .ok loaded) ↔
      verbose = true ∨ ∀ v ∈ read, ∀ x ∈ v.at? [.text "general"], x.isMap = true := by
  rcases read with _ | v
  · exact iff_of_true ⟨_, rfl⟩ (.inr nofun)
  have hgeneral : (∀ y ∈ (configOf (some v)).at? [.text "general"], y.isMap = true) ↔
      ∀ x ∈ v.at? [.text "general"], x.isMap = true := by
    cases v with
    | map fields => exact sections_overlay_iff (h _ rfl) List.mem_cons_self
    | _ => exact iff_of_true (usable_defaults.sections "general" List.mem_cons_self) nofun
  rw [ofRead_some, exists_map_iff]
  cases verbose with
  | true => exact iff_of_true ⟨true, rfl⟩ (.inl rfl)
  | false =>
    rw [if_neg Bool.false_ne_true, exists_asksVerbose_iff (isMap_configOf _), hgeneral]
    simp

theorem of_ofRead (h : ofRead name verbose read = .ok loaded) :
    loaded.config = configOf read ∧ ∀ line ∈ warnings name read, line ∈ loaded.log := by
  rcases read with _ | v
  · obtain rfl := Except.ok.inj h
    exact ⟨rfl, fun line => id⟩
  · rw [ofRead_some] at h
    obtain ⟨told, -, rfl⟩ := exists_of_map h
    exact ⟨rfl, fun line => List.mem_append_left _⟩

theorem load_of_fault {fault : Fault} (h : chosen? env asked = .error fault) (verbose : Bool) :
    load env asked verbose = .error fault := by
  rw [load, h]

theorem load_of_none (h : chosen? env asked = .ok none) (verbose : Bool) :
    ∃ log, load env asked verbose = .ok ⟨.defaults, log⟩ := by
  rw [load, h]
  exact ⟨_, rfl⟩

def unreadableWarning (name reason : String) : String :=
  "ConfigLoader Warning: Error reading config file " ++ name ++ ": " ++ reason ++ ". Using defaults."

theorem load_of_unreadable {reason : String} (h : chosen? env asked = .ok (some c))
    (hcontents : c.contents = .error reason) (verbose : Bool) :
    ∃ log, load env asked verbose = .ok ⟨.defaults, log ++ [unreadableWarning c.name reason]⟩ := by
  rw [load, h]
  dsimp only
  rw [ofCandidate, hcontents]
  exact ⟨_, rfl⟩

theorem load_of_bytes (h : chosen? env asked = .ok (some c)) (hbytes : c.contents = .ok bytes)
    (verbose : Bool) : ∃ log, load env asked verbose = env.yaml.value? bytes >>= fun read =>
      (ofRead c.name verbose read).map fun r => { r with log := log ++ r.log } := by
  rw [load, h]
  dsimp only
  rw [ofCandidate, hbytes]
  dsimp only
  refine ⟨choiceLog env asked, ?_⟩
  cases env.yaml.value? bytes <;> rfl

theorem exists_load_iff (hreader : env.yaml.Lawful) :
    (∃ loaded, load env asked verbose = .ok loaded) ↔
      ∃ chosen, chosen? env asked = .ok chosen ∧ ∀ c ∈ chosen, ∀ bytes, c.contents = .ok bytes →
        ∃ read, env.yaml.value? bytes = .ok read ∧
          (verbose = true ∨ ∀ v ∈ read, ∀ x ∈ v.at? [.text "general"], x.isMap = true) := by
  rcases hchosen : chosen? env asked with fault | _ | c
  · rw [load_of_fault hchosen]
    exact iff_of_false nofun nofun
  · obtain ⟨log, hload⟩ := load_of_none hchosen verbose
    exact iff_of_true ⟨_, hload⟩ ⟨none, rfl, nofun⟩
  · simp only [Except.ok.injEq, exists_eq_left', Option.mem_some_iff, forall_eq']
    cases hcontents : c.contents with
    | error reason =>
      obtain ⟨log, hload⟩ := load_of_unreadable hchosen hcontents verbose
      exact iff_of_true ⟨_, hload⟩ nofun
    | ok bytes =>
      obtain ⟨log, hload⟩ := load_of_bytes hchosen hcontents verbose
      simp only [hload, exists_bind_iff, exists_map_iff, Except.ok.injEq, forall_eq']
      refine exists_congr fun read => and_congr_right fun hread => ?_
      exact exists_ofRead_iff fun v hv => hreader.proper_of_read (hv ▸ hread)

theorem of_load (hload : load env asked verbose = .ok loaded) (hchosen : chosen? env asked = .ok (some c))
    (hbytes : c.contents = .ok bytes) : ∃ read, env.yaml.value? bytes = .ok read ∧
      loaded.config = configOf read ∧ ∀ line ∈ warnings c.name read, line ∈ loaded.log := by
  obtain ⟨log, heq⟩ := load_of_bytes hchosen hbytes verbose
  rw [heq] at hload
  cases hread : env.yaml.value? bytes with
  | error f =>
    rw [hread] at hload
    cases hload
  | ok read =>
    rw [hread] at hload
    obtain ⟨r, hr, rfl⟩ := exists_of_map hload
    obtain ⟨hconfig, hlines⟩ := of_ofRead hr
    exact ⟨read, rfl, hconfig, fun line hline => List.mem_append_right log (hlines line hline)⟩

theorem exists_settings_defaults : ∃ settings, Settings.ofConfig .defaults = .ok settings :=
  (exists_ofConfig_iff rfl).mpr usable_defaults

theorem exists_settings_iff (hreader : env.yaml.Lawful) :
    (∃ loaded settings, load env asked verbose = .ok loaded ∧
        Settings.ofConfig loaded.config = .ok settings) ↔
      ∃ chosen, chosen? env asked = .ok chosen ∧ ∀ c ∈ chosen, ∀ bytes, c.contents = .ok bytes →
        ∃ read, env.yaml.value? bytes = .ok read ∧ ∀ v ∈ read, v.Usable := by
  have hproper : ∀ {bytes read}, env.yaml.value? bytes = .ok read → ∀ v ∈ read, v.Proper :=
    fun hread v hv => hreader.proper_of_read (hv ▸ hread)
  constructor
  · rintro ⟨loaded, settings, hload, hsettings⟩
    obtain ⟨chosen, hchosen, -⟩ := (exists_load_iff hreader).mp ⟨loaded, hload⟩
    refine ⟨chosen, hchosen, fun c hc bytes hbytes => ?_⟩
    rw [Option.mem_def.mp hc] at hchosen
    obtain ⟨read, hread, hconfig, -⟩ := of_load hload hchosen hbytes
    rw [hconfig] at hsettings
    have husable := (exists_ofConfig_iff (isMap_configOf read)).mp ⟨settings, hsettings⟩
    exact ⟨read, hread, (usable_configOf_iff (hproper hread)).mp husable⟩
  · rintro ⟨chosen, hchosen, h⟩
    obtain ⟨settings, hdefaults⟩ := exists_settings_defaults
    rcases chosen with _ | c
    · obtain ⟨log, hload⟩ := load_of_none hchosen verbose
      exact ⟨_, settings, hload, hdefaults⟩
    · cases hcontents : c.contents with
      | error reason =>
        obtain ⟨log, hload⟩ := load_of_unreadable hchosen hcontents verbose
        exact ⟨_, settings, hload, hdefaults⟩
      | ok bytes =>
        obtain ⟨read, hread, husable⟩ := h c rfl bytes hcontents
        have hgeneral : ∀ v ∈ read, ∀ x ∈ v.at? [.text "general"], x.isMap = true :=
          fun v hv => (husable v hv).sections "general" List.mem_cons_self
        obtain ⟨loaded, hload⟩ : ∃ loaded, load env asked verbose = .ok loaded := by
          refine (exists_load_iff hreader).mpr ⟨some c, hchosen, fun c' hc' bytes' hbytes' => ?_⟩
          obtain rfl := Option.some.inj hc'
          obtain rfl := Except.ok.inj (hcontents.symm.trans hbytes')
          exact ⟨read, hread, .inr hgeneral⟩
        obtain ⟨read', hread', hconfig, -⟩ := of_load hload hchosen hcontents
        obtain rfl := Except.ok.inj (hread.symm.trans hread')
        have husable' := (usable_configOf_iff (hproper hread)).mpr husable
        obtain ⟨settings, hsettings⟩ := (exists_ofConfig_iff (isMap_configOf read)).mpr husable'
        rw [← hconfig] at hsettings
        exact ⟨loaded, settings, hload, hsettings⟩

theorem load_of_undecodable (hreader : env.yaml.Lawful) (hchosen : chosen? env asked = .ok (some c))
    (hbytes : c.contents = .ok bytes) (h : ∀ s, Text.Utf8.decode bytes ≠ .ok s)
    (hshort : bytes.length < Text.Intake.pieceSize) (verbose : Bool) :
    ∃ f, load env asked verbose = .error (.undecodable f) := by
  obtain ⟨log, hload⟩ := load_of_bytes hchosen hbytes verbose
  obtain ⟨f, hread⟩ := hreader.value?_of_undecodable h hshort
  refine ⟨f, ?_⟩
  rw [hload, hread]
  rfl

/-- What becomes of a file, whatever reads the YAML. The loading fails where no file can be chosen, and a
missing or unreadable file leaves the defaults, of which settings can be made. If the file is UTF-8, it is
read unless the YAML in it has a fault, which a broken text is not; if it is short and no UTF-8, nothing is
loaded. Of what is read, a mapping is laid over the defaults and all else leaves them, with a warning unless
it is null. The loading stops only at a general section that is no mapping and has to be asked, and settings
can be made of the result if and only if the value is usable. -/
theorem load_exact (env : Environment) (asked : Option Path) (verbose : Bool)
    (hreader : env.yaml.Lawful) :
    let chosen := chosen? env asked
    let result := load env asked verbose
    (∀ fault, chosen = .error fault → result = .error fault) ∧
      (chosen = .ok none → ∃ log, result = .ok ⟨.defaults, log⟩) ∧
      (∀ c reason, chosen = .ok (some c) → c.contents = .error reason →
        ∃ log, result = .ok ⟨.defaults, log ++ [unreadableWarning c.name reason]⟩) ∧
      (∃ settings, Settings.ofConfig .defaults = .ok settings) ∧
      (∀ c bytes, chosen = .ok (some c) → c.contents = .ok bytes →
        (∀ s, Text.Utf8.decode bytes = .ok s → ∃ pieces, pieces.flatten = Text.unifyBreaks s.toList ∧
          ((∃ read, env.yaml.value? bytes = .ok read) ↔ ∀ f, env.yaml pieces none ≠ .error (.fault f))) ∧
        (bytes.length < Text.Intake.pieceSize → (∀ s, Text.Utf8.decode bytes ≠ .ok s) →
          ∃ f, result = .error (.undecodable f)) ∧
        ∀ loaded, result = .ok loaded → ∃ read, env.yaml.value? bytes = .ok read ∧
          loaded.config = configOf read ∧ ∀ line ∈ warnings c.name read, line ∈ loaded.log) ∧
      ((∃ loaded, result = .ok loaded) ↔
        ∃ found, chosen = .ok found ∧ ∀ c ∈ found, ∀ bytes, c.contents = .ok bytes →
          ∃ read, env.yaml.value? bytes = .ok read ∧
            (verbose = true ∨ ∀ v ∈ read, ∀ x ∈ v.at? [.text "general"], x.isMap = true)) ∧
      ((∃ loaded settings, result = .ok loaded ∧ Settings.ofConfig loaded.config = .ok settings) ↔
        ∃ found, chosen = .ok found ∧ ∀ c ∈ found, ∀ bytes, c.contents = .ok bytes →
          ∃ read, env.yaml.value? bytes = .ok read ∧ ∀ v ∈ read, v.Usable) := by
  intro chosen result
  refine ⟨fun fault h => load_of_fault h verbose, fun h => load_of_none h verbose,
    fun c reason h hcontents => load_of_unreadable h hcontents verbose, exists_settings_defaults,
    fun c bytes h hbytes => ⟨fun s hs => env.yaml.exists_value?_iff hs, fun hshort hstray => ?_,
      fun loaded hload => of_load hload h hbytes⟩,
    exists_load_iff hreader, exists_settings_iff hreader⟩
  exact load_of_undecodable hreader h hbytes hstray hshort verbose

def holding (bytes : List UInt8) : Environment where
  files := Files.empty.put [] "flowcrawl.yaml" (.file bytes)
  workingDirectory := []
  home := []
  parsers := { unavailable := fun _ => none, parse := fun _ _ => .malformed }
  yaml := Yaml.reader

theorem chosen?_holding (bytes : List UInt8) :
    chosen? (holding bytes) none = .ok (some ⟨"/flowcrawl.yaml", .ok bytes⟩) := by
  have hentry : (holding bytes).files.entryAt ["flowcrawl.yaml"] = some (.file bytes) := rfl
  have hfind : (holding bytes).find ⟨"/", ["flowcrawl.yaml"]⟩ = .ok ["flowcrawl.yaml"] := by
    have hwalk : (holding bytes).files.walk Files.linkLimit [] ["flowcrawl.yaml"] = _ :=
      Files.walk_cons (by decide +kernel) (by decide) Files.linkLimit []
    rw [List.nil_append, hentry] at hwalk
    rw [Environment.find, if_neg (by decide +kernel), if_neg (by decide +kernel)]
    have hsearchable : ¬(!(holding bytes).files.access.searchable []) = true := Bool.false_ne_true
    exact hwalk.trans ((if_neg hsearchable).trans (if_neg (by decide +kernel)))
  have htext : (⟨"/", ["flowcrawl.yaml"]⟩ : Path).text = "/flowcrawl.yaml" := by decide +kernel
  have hcandidate : candidate? (holding bytes) ⟨"/", ["flowcrawl.yaml"]⟩ =
      .ok (some ⟨"/flowcrawl.yaml", .ok bytes⟩) := by
    rw [candidate?, Environment.stat?, hfind, htext]
    rfl
  rw [chosen?, usual?.eq_def]
  dsimp only [configNames]
  rw [show (holding bytes).workingDirectory ++ ["flowcrawl.yaml"] = ["flowcrawl.yaml"] from rfl, hcandidate]

def bareSection (name : String) : List UInt8 :=
  Text.Utf8.encode (name ++ ":\n")

def isBare (name : String) : Except Yaml.Problem Value → Bool
  | .ok (.map [(.text key, .null)]) => key == name
  | _ => false

theorem eq_of_isBare {x : Except Yaml.Problem Value} (h : isBare name x = true) :
    x = .ok (.map [(.text name, .null)]) := by
  unfold isBare at h
  split at h
  · rw [beq_iff_eq.mp h]
  · cases h

theorem value?_bareSection (h : name = "general" ∨ name = "watcher") :
    Yaml.reader.value? (bareSection name) = .ok (some (.map [(.text name, .null)])) := by
  rcases h with rfl | rfl
  · exact YamlReader.value?_of_short (s := "general:\n") rfl (by decide +kernel) (by decide +kernel)
      (eq_of_isBare (by decide +kernel))
  · exact YamlReader.value?_of_short (s := "watcher:\n") rfl (by decide +kernel) (by decide +kernel)
      (eq_of_isBare (by decide +kernel))

theorem load_exact_sample :
    Yaml.reader.Lawful ∧
      (∃ loaded, load (holding (bareSection "watcher")) none false = .ok loaded ∧
        loaded.config = configOf (some (.map [(.text "watcher", .null)]))) ∧
      ¬ ∃ loaded settings, load (holding (bareSection "watcher")) none false = .ok loaded ∧
        Settings.ofConfig loaded.config = .ok settings := by
  have hchosen := chosen?_holding (bareSection "watcher")
  have hread := value?_bareSection (.inr rfl)
  obtain ⟨-, -, -, -, hfile, hload, hsettings⟩ :=
    load_exact (holding (bareSection "watcher")) none false Yaml.lawful_reader
  refine ⟨Yaml.lawful_reader, ?_, fun h => ?_⟩
  · obtain ⟨loaded, hloaded⟩ := hload.mpr ⟨_, hchosen, fun c hc bytes hbytes => by
      obtain rfl := Option.some.inj hc
      obtain rfl := Except.ok.inj hbytes
      refine ⟨_, hread, .inr fun v hv x hx => ?_⟩
      obtain rfl := Option.some.inj hv
      cases hx⟩
    obtain ⟨-, -, hconfig⟩ := hfile _ _ hchosen rfl
    obtain ⟨read, hread', hconfig, -⟩ := hconfig loaded hloaded
    obtain rfl := Except.ok.inj (hread.symm.trans hread')
    exact ⟨loaded, hloaded, hconfig⟩
  · obtain ⟨found, hfound, hgood⟩ := hsettings.mp h
    obtain rfl := Except.ok.inj (hchosen.symm.trans hfound)
    obtain ⟨read, hread', husable⟩ := hgood _ rfl _ rfl
    obtain rfl := Except.ok.inj (hread.symm.trans hread')
    have hsection := (husable _ rfl).sections "watcher" (by decide) .null rfl
    cases hsection

/-- A byte that is no UTF-8 and a bare general section stop the loading; with another bare section the file
is loaded, and no settings can be made of it. -/
theorem load_stopped :
    (∃ f, load (holding [0xff]) none false = .error (.undecodable f)) ∧
      load (holding (bareSection "general")) none false = .error (.notAMapping "NoneType") ∧
      ∃ loaded, load (holding (bareSection "watcher")) none false = .ok loaded ∧
        Settings.ofConfig loaded.config = .error (.notAMapping "NoneType") := by
  have hstray : ∀ s, Text.Utf8.decode [0xff] ≠ .ok s := by
    intro s hs
    cases hs
  refine ⟨?_, ?_, ?_⟩
  · exact load_of_undecodable Yaml.lawful_reader (chosen?_holding [0xff]) rfl hstray (by decide) false
  · obtain ⟨log, hload⟩ := load_of_bytes (chosen?_holding (bareSection "general")) rfl false
    rw [hload]
    show Yaml.reader.value? (bareSection "general") >>= _ = _
    rw [value?_bareSection (.inl rfl)]
    rfl
  · obtain ⟨log, hload⟩ := load_of_bytes (chosen?_holding (bareSection "watcher")) rfl false
    rw [hload]
    refine ⟨_, (congrArg (· >>= _) (value?_bareSection (.inr rfl))).trans rfl, rfl⟩

end LoadedConfig
end FlowAtlas
