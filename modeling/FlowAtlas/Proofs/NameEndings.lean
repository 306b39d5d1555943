import FlowAtlas.Proofs.EventPatterns

/-! The endings of file names. A name whose lower case ends in an extension ends in it itself, in upper or lower
case: no other letter becomes one of an extension. So the names that fit the patterns of a crawl's handler are
those of files that can be read, and besides them names that are nothing but an extension. -/

namespace FlowAtlas

namespace Text

def isBasic (c : Char) : Bool :=
  decide (c.toNat < 128) && c != 'k'

theorem toNat_ofNat {n : Nat} (h : n < 0xD800 ∨ 0xE000 ≤ n ∧ n < 0x110000) :
    (Char.ofNat n).toNat = n := by
  have hvalid : n.isValidChar := h.imp_right fun h => ⟨h.1, h.2⟩
  rw [Char.ofNat, dif_pos hvalid]
  rfl

/-- Of the capitals outside ASCII only the kelvin sign has an ASCII letter for its lower case. -/
theorem capitals_facts : ∀ r ∈ capitals, r.last < 128 ∨
    (r.first = 0x212A ∧ r.last = 0x212A ∧ r.distance = -8383) ∨
    128 ≤ r.first + r.distance ∧ (r.last + r.distance < 0xD800 ∨
      0xE000 ≤ r.first + r.distance ∧ r.last + r.distance < 0x110000) := by
  decide +kernel

theorem lowerChar_of_basic {c : Char} (h : isBasic (lowerChar c) = true) : lowerChar c = c.toLower := by
  by_cases hascii : c.toNat < 128
  · exact lowerChar_of_ascii hascii
  simp only [isBasic, Bool.and_eq_true, decide_eq_true_eq, bne_iff_ne] at h
  obtain ⟨hlower, hk⟩ := h
  unfold lowerChar at hlower hk
  dsimp only at hlower hk
  split at hlower
  · exact absurd hlower hascii
  · rename_i r hfound
    simp only [hfound] at hk
    have hrange := List.find?_some hfound
    simp only [Bool.and_eq_true, decide_eq_true_eq] at hrange
    obtain ⟨⟨hfirst, hlast⟩, _⟩ := hrange
    obtain hsmall | ⟨hfirst', hlast', hdistance⟩ | ⟨hlow, hvalid⟩ :=
      capitals_facts r (List.mem_of_find?_eq_some hfound)
    · omega
    · have hkelvin : c.toNat = 0x212A := by omega
      rw [hkelvin, hdistance] at hk
      exact absurd rfl hk
    · rw [toNat_ofNat (by omega)] at hlower
      omega

/-- What becomes of one character; only a last one that is basic is the lower case of that character alone. -/
theorem lowerFrom_cons (before : List Char) (c : Char) (rest : List Char) :
    ∃ out last, lowerFrom before (c :: rest) = out ++ last :: lowerFrom (c :: before) rest ∧
      (isBasic last = true → out = [] ∧ last = c.toLower) := by
  rw [lowerFrom]
  split
  · refine ⟨[], lowerSigma before rest, rfl, fun hbasic => ?_⟩
    unfold lowerSigma at hbasic
    split at hbasic <;> exact absurd hbasic (by decide)
  · split
    · exact ⟨['i'], '\u0307', rfl, fun hbasic => absurd hbasic (by decide)⟩
    · exact ⟨[], lowerChar c, rfl, fun hbasic => ⟨rfl, lowerChar_of_basic hbasic⟩⟩

theorem map_toLower_of_basic {before cs : List Char}
    (h : ∀ c ∈ lowerFrom before cs, isBasic c = true) : cs.map Char.toLower = lowerFrom before cs := by
  induction cs generalizing before with
  | nil => rfl
  | cons c rest ih =>
    obtain ⟨out, last, heq, hlast⟩ := lowerFrom_cons before c rest
    rw [heq] at h ⊢
    obtain ⟨rfl, rfl⟩ := hlast (h last (by simp))
    have hrest : ∀ d ∈ lowerFrom (c :: before) rest, isBasic d = true := fun d hd =>
      h d (List.mem_cons_of_mem _ hd)
    rw [List.map_cons, ih hrest]
    rfl

theorem ending_of_lowerFrom {before cs ending : List Char} (hbasic : ∀ c ∈ ending, isBasic c = true)
    (h : ending <:+ lowerFrom before cs) :
    ∃ front last, cs = front ++ last ∧ last.map Char.toLower = ending := by
  induction cs generalizing before with
  | nil => exact ⟨[], [], rfl, (List.suffix_nil.mp h).symm⟩
  | cons c rest ih =>
    have hshorter : ending <:+ lowerFrom (c :: before) rest →
        ∃ front last, c :: rest = front ++ last ∧ last.map Char.toLower = ending := by
      intro hrest
      obtain ⟨front, last, rfl, hmap⟩ := ih hrest
      exact ⟨c :: front, last, rfl, hmap⟩
    obtain ⟨out, last, heq, hlast⟩ := lowerFrom_cons before c rest
    rw [heq, List.append_cons] at h
    rcases List.suffix_or_suffix_of_suffix h (List.suffix_append _ _) with hrest | ⟨more, rfl⟩
    · exact hshorter hrest
    · rw [List.suffix_append_inj_of_length_eq rfl] at h
      obtain rfl | ⟨more, rfl, hmore⟩ := List.suffix_concat_iff.mp h.1
      · exact hshorter (List.suffix_refl _)
      · obtain ⟨rfl, rfl⟩ := hlast (hbasic last (by simp))
        obtain rfl := List.suffix_nil.mp hmore
        have hmap : rest.map Char.toLower = lowerFrom (c :: before) rest :=
          map_toLower_of_basic fun d hd => hbasic d (List.mem_append_right _ hd)
        exact ⟨[], c :: rest, rfl, by rw [List.map_cons, hmap]; rfl⟩

theorem ending_of_lower {text ending : String} (hbasic : ∀ c ∈ ending.toList, isBasic c = true)
    (h : ending.toList <:+ (lower text).toList) :
    ∃ front last, text.toList = front ++ last ∧ last.map Char.toLower = ending.toList := by
  rw [lower, String.toList_ofList] at h
  exact ending_of_lowerFrom hbasic h

end Text

theorem extensionOf_of_ending {name : String} {front rest : List Char}
    (hname : name.toList = front ++ '.' :: rest) (hfront : front ≠ []) (hrest : rest ≠ [])
    (hdots : '.' ∉ rest) : extensionOf name = String.ofList ('.' :: rest) := by
  have hreversed : name.toList.reverse = rest.reverse ++ '.' :: front.reverse := by
    rw [hname, List.reverse_append, List.reverse_cons, List.append_assoc]
    rfl
  have hending : name.toList.reverse.takeWhile (· != '.') = rest.reverse := by
    have hfree : ∀ c ∈ rest.reverse, (c != '.') = true := by
      intro c hc
      rw [bne_iff_ne]
      exact fun heq => hdots (heq ▸ List.mem_reverse.mp hc)
    rw [hreversed, List.takeWhile_append_of_pos hfree]
    simp
  have hdrop : name.toList.reverse.drop rest.reverse.length = '.' :: front.reverse := by
    rw [hreversed, List.drop_left]
  obtain ⟨a, as, hafter⟩ := List.exists_cons_of_ne_nil (mt List.reverse_eq_nil_iff.mp hrest)
  obtain ⟨b, bs, hbefore⟩ := List.exists_cons_of_ne_nil (mt List.reverse_eq_nil_iff.mp hfront)
  unfold extensionOf
  dsimp only
  rw [hending, hdrop, hafter, hbefore]
  dsimp only
  rw [← hafter, List.reverse_reverse]

namespace Language

theorem isSome_ofExtension? {extension : String} :
    (ofExtension? extension).isSome = true ↔ Text.lowerAscii extension ∈ supportedExtensions := by
  unfold ofExtension? supportedExtensions
  rw [List.find?_isSome, List.mem_flatMap]
  simp only [List.contains_iff_mem]

theorem supportedExtensions_shape : ∀ ext ∈ supportedExtensions, ∃ rest,
    ext.toList = '.' :: rest ∧ rest ≠ [] ∧ '.' ∉ rest ∧ ∀ c ∈ ext.toList, Text.isBasic c = true := by
  have hshape : ∀ ext ∈ supportedExtensions, ext.toList = '.' :: ext.toList.tail ∧
      ext.toList.tail ≠ [] ∧ '.' ∉ ext.toList.tail ∧ ext.toList.all Text.isBasic = true := by
    decide +kernel
  intro ext hext
  obtain ⟨hdot, hne, hdots, hbasic⟩ := hshape ext hext
  exact ⟨_, hdot, hne, hdots, List.all_eq_true.mp hbasic⟩

end Language

theorem Text.eq_dot_of_toLower {c : Char} (h : c.toLower = '.') : c = '.' := by
  have hletters : ∀ n < 128, (Char.ofNat n).toLower = '.' → Char.ofNat n = '.' := by decide +kernel
  have hascii : c.toNat < 128 := toNat_lt_of_toLower (h ▸ by decide)
  have hc := hletters c.toNat hascii
  rw [Char.ofNat_toNat] at hc
  exact hc h

theorem languageOf?_of_ending {name : String} {ext : String} {front last : List Char}
    (hext : ext ∈ Language.supportedExtensions) (hname : name.toList = front ++ last)
    (hlast : last.map Char.toLower = ext.toList) (hfront : front ≠ []) :
    (languageOf? name).isSome = true := by
  obtain ⟨rest, hshape, hrest, hdots, _⟩ := Language.supportedExtensions_shape ext hext
  rw [hshape] at hlast
  obtain ⟨dot, rest', rfl, hdot, rfl⟩ := List.map_eq_cons_iff.mp hlast
  obtain rfl := Text.eq_dot_of_toLower hdot
  have hdots' : '.' ∉ rest' := fun hmem => hdots (List.mem_map_of_mem hmem)
  have hextension := extensionOf_of_ending hname hfront (by simpa using hrest) hdots'
  rw [languageOf?, Language.isSome_ofExtension?, hextension, Text.lowerAscii, String.toList_ofList,
    List.map_cons, hdot, ← hshape, String.ofList_toList]
  exact hext

theorem Crawler.fitsName_iff {name : String} (c : Crawler) (root : Address) (channel : Nat) :
    (c.handler root channel).fitsName name = true ↔
      (languageOf? name).isSome = true ∨ Text.lower name ∈ Language.supportedExtensions := by
  constructor
  · intro h
    rw [Handler.fitsName, Bool.and_eq_true, List.any_eq_true] at h
    obtain ⟨⟨pattern, hpattern, hfits⟩, _⟩ := h
    obtain ⟨ext, hext, rfl⟩ := mem_patterns_handler.mp hpattern
    obtain ⟨hsimple, hchars, _⟩ := Language.supportedExtensions_facts ext hext
    rw [Pattern.lower_of_isSimple hsimple, Text.fitsPattern_star fun c hc => (hchars c hc).1] at hfits
    obtain ⟨_, _, _, _, hbasic⟩ := Language.supportedExtensions_shape ext hext
    obtain ⟨front, last, hname, hlast⟩ := Text.ending_of_lower hbasic hfits
    by_cases hfront : front = []
    · obtain rfl : name.toList = last := by rw [hname, hfront, List.nil_append]
      have hascii : ∀ c ∈ name.toList, c.toLower.toNat < 128 := fun c hc =>
        (hchars _ (hlast ▸ List.mem_map_of_mem hc)).2.1
      right
      rwa [Text.lower, Text.lowerFrom_of_ascii hascii, hlast, String.ofList_toList]
    · exact .inl (languageOf?_of_ending hext hname hlast hfront)
  · intro h
    rcases h with h | h
    · obtain ⟨l, hl⟩ := Option.isSome_iff_exists.mp h
      exact fitsName_handler hl c root channel
    · exact fitsName_of_ending h (List.suffix_refl _) c root channel

end FlowAtlas
