import ScriptHost.Proofs.Path.Spelling

/-!
# Where a path leads

A path leads over the texts between its slashes, and those that are empty or dots lead nowhere, unless they come last:
then they say that there is a directory.  So where a path leads is told by its way (`way`, `Disk.locate_congr`), and
paths with the same parts lead to the same place if they end in a name (`SameWay.of_ended`), as the paths of files do
(`Disk.ended_of_isFile`).
-/

namespace ScriptHost.Path

/-! ### Names and ways -/

/-- Whether a text between slashes leads anywhere. -/
def leads (part : String) : Bool := part ≠ "" ∧ part ≠ "."

/-- The texts between the slashes of a path that lead anywhere. -/
def names (path : String) : List String := (segments path).filter leads

/-- The texts over which a path leads, and the one that it ends in, whether that leads anywhere or not. -/
def way (path : String) : List String := (segments path).dropLast.filter leads ++ (segments path).getLast?.toList

/-- The path ends in a text that leads somewhere. -/
def Ended (path : String) : Prop := way path = names path

/-- Two paths with the same way. -/
structure SameWay (path path' : String) : Prop where
  absolute : isAbsolute path = isAbsolute path'
  way : way path = way path'

private theorem segments_ne_nil (path : String) : segments path ≠ [] := by
  obtain ⟨s, more, hs⟩ := exists_splitSlashes_cons path.toList
  simp [segments, hs]

private theorem exists_segments_concat (path : String) : ∃ front last, segments path = front ++ [last] :=
  ⟨_, _, (List.dropLast_concat_getLast (segments_ne_nil path)).symm⟩

private theorem way_of_segments {path : String} {front : List String} {last : String}
    (h : segments path = front ++ [last]) : way path = front.filter leads ++ [last] := by
  rw [way, h, List.dropLast_concat, List.getLast?_concat]
  rfl

theorem ended_iff {path : String} {front : List String} {last : String} (h : segments path = front ++ [last]) :
    Ended path ↔ leads last = true := by
  rw [Ended, way_of_segments h, names, h, List.filter_append, List.append_cancel_left_eq]
  cases hlast : leads last <;> simp [hlast]

theorem segments_below (head tail : String) : segments (head ++ "/" ++ tail) = segments head ++ segments tail := by
  have hlist : (head ++ "/" ++ tail).toList = head.toList ++ '/' :: tail.toList := by simp
  rw [segments, hlist, splitSlashes_append, List.map_append]
  rfl

/-- What is added to a path without a slash is added to its last text. -/
theorem segments_append {ending : String} (hending : '/' ∉ ending.toList) (path : String) :
    ∃ front last, segments path = front ++ [last] ∧ segments (path ++ ending) = front ++ [last ++ ending] := by
  have hsplit : ∀ cs : List Char, ∃ front last, splitSlashes cs = front ++ [last] ∧
      splitSlashes (cs ++ ending.toList) = front ++ [last ++ ending.toList] := by
    intro cs
    induction cs with
    | nil => exact ⟨[], [], rfl, splitSlashes_of_not_mem hending⟩
    | cons c cs ih =>
      obtain ⟨front, last, hcs, happend⟩ := ih
      by_cases hc : c = '/'
      · subst hc
        exact ⟨[] :: front, last, by rw [splitSlashes_cons_slash, hcs]; rfl,
          by rw [List.cons_append, splitSlashes_cons_slash, happend]; rfl⟩
      · cases front with
        | nil => exact ⟨[], c :: last, splitSlashes_cons_of_ne hc hcs, splitSlashes_cons_of_ne hc happend⟩
        | cons s more =>
          exact ⟨(c :: s) :: more, last, splitSlashes_cons_of_ne hc hcs, splitSlashes_cons_of_ne hc happend⟩
  obtain ⟨front, last, hpath, happend⟩ := hsplit path.toList
  refine ⟨front.map String.ofList, String.ofList last, by simp [segments, hpath], ?_⟩
  rw [segments, String.toList_append, happend]
  simp

/-! ### What the parts tell -/

private theorem ofPart_injective {a b : String} (h : Component.ofPart a = Component.ofPart b) : a = b := by
  unfold Component.ofPart at h
  split at h <;> split at h
  · rename_i ha hb
    rw [ha, hb]
  · cases h
  · cases h
  · exact Component.normal.inj h

theorem counted_eq_names (path : String) : counted path.toList = (names path).map Component.ofPart := by
  have hparts : ∀ l : List (List Char), (∀ s ∈ l, '/' ∉ s) →
      l.filterMap component? = ((l.map String.ofList).filter leads).map Component.ofPart := by
    intro l hl
    induction l with
    | nil => rfl
    | cons s rest ih =>
      obtain ⟨hs, hrest⟩ := List.forall_mem_cons.1 hl
      rw [List.filterMap_cons, List.map_cons, ih hrest]
      cases hc : component? s with
      | none =>
        have hidle : leads (String.ofList s) = false := by
          unfold component? at hc
          split at hc
          · rfl
          · rfl
          · cases hc
          · cases hc
        rw [List.filter_cons_of_neg (by rw [hidle]; decide)]
      | some c =>
        obtain ⟨hpart, rfl⟩ := part_of_component? hs hc
        rw [List.filter_cons_of_pos (by simp [leads, hpart.ne_empty, hpart.ne_dot])]
        rfl
  exact hparts _ fun s => not_mem_of_mem_splitSlashes

/-- The parts of a path but for those that it begins with on account of their places. -/
private theorem components_filter (path : String) :
    (components path).filter (fun c => c ≠ .root ∧ c ≠ .current) = (names path).map Component.ofPart := by
  have hlead : (lead path.toList).filter (fun c => c ≠ .root ∧ c ≠ .current) = [] := by
    unfold lead
    split
    · rfl
    · split <;> rfl
  rw [components_eq_lead, List.filter_append, hlead, List.nil_append, counted_eq_names, List.filter_eq_self]
  intro c hc
  obtain ⟨part, -, rfl⟩ := List.mem_map.1 hc
  unfold Component.ofPart
  split <;> rfl

private theorem names_congr {path path' : String} (h : components path = components path') :
    names path = names path' := by
  have hmap := components_filter path
  rw [h, components_filter] at hmap
  exact (List.map_injective_iff.2 fun _ _ => ofPart_injective) hmap.symm

/-- The last of the names that count is the last part. -/
theorem components_getLast?_of_names {path part : String} {parts : List String} (h : names path = parts ++ [part]) :
    (components path).getLast? = some (.ofPart part) := by
  rw [components_eq_lead, counted_eq_names, h, List.map_append, ← List.append_assoc]
  exact List.getLast?_concat

private theorem root_not_mem_counted (path : String) : Component.root ∉ counted path.toList := by
  rw [counted_eq_names]
  intro hroot
  obtain ⟨part, -, hpart⟩ := List.mem_map.1 hroot
  unfold Component.ofPart at hpart
  split at hpart <;> cases hpart

private theorem isAbsolute_iff {path : String} : isAbsolute path = true ↔ Component.root ∈ components path := by
  rw [components_eq_lead, List.mem_append, or_iff_left (root_not_mem_counted path), isAbsolute]
  unfold lead
  split
  · simp_all
  · split <;> simp_all

private theorem isAbsolute_congr {path path' : String} (h : components path = components path') :
    isAbsolute path = isAbsolute path' := by
  rw [Bool.eq_iff_iff, isAbsolute_iff, isAbsolute_iff, h]

/-! ### The same way -/

theorem SameWay.of_ended {path path' : String} (h : components path = components path') (he : Ended path)
    (he' : Ended path') : SameWay path path' :=
  ⟨isAbsolute_congr h, by rw [he, he', names_congr h]⟩

theorem isAbsolute_append {ending : String} (hending : '/' ∉ ending.toList) (path : String) :
    isAbsolute (path ++ ending) = isAbsolute path := by
  unfold isAbsolute
  rw [String.toList_append]
  cases path.toList with
  | cons c cs => rfl
  | nil =>
    cases hcs : ending.toList with
    | nil => rfl
    | cons c cs =>
      have hc : c ≠ '/' := by
        rintro rfl
        exact hending (by rw [hcs]; exact List.mem_cons_self)
      simpa using hc

theorem SameWay.append {path path' ending : String} (hending : '/' ∉ ending.toList) (h : SameWay path path') :
    SameWay (path ++ ending) (path' ++ ending) := by
  refine ⟨by rw [isAbsolute_append hending, isAbsolute_append hending, h.absolute], ?_⟩
  obtain ⟨front, last, hpath, happend⟩ := segments_append hending path
  obtain ⟨front', last', hpath', happend'⟩ := segments_append hending path'
  have hway := h.way
  rw [way_of_segments hpath, way_of_segments hpath'] at hway
  obtain ⟨hfront, hlast⟩ := List.append_inj' hway rfl
  rw [way_of_segments happend, way_of_segments happend', hfront, (List.cons.inj hlast).1]

theorem names_below (head tail : String) : names (head ++ "/" ++ tail) = names head ++ names tail := by
  rw [names, segments_below, List.filter_append]
  rfl

private theorem way_below (head tail : String) : way (head ++ "/" ++ tail) = names head ++ way tail := by
  obtain ⟨front, last, htail⟩ := exists_segments_concat tail
  have hall : segments (head ++ "/" ++ tail) = (segments head ++ front) ++ [last] := by
    rw [segments_below, htail, List.append_assoc]
  rw [way_of_segments hall, way_of_segments htail, List.filter_append, List.append_assoc]
  rfl

private theorem join_empty {path : String} (hpath : isAbsolute path = false) : join "" path = path := by
  simp [join, hpath]

theorem isAbsolute_join {base path : String} (hpath : isAbsolute path = false) :
    isAbsolute (join base path) = isAbsolute base := by
  by_cases hbase : base = ""
  · subst hbase
    rw [join_empty hpath, hpath]
    rfl
  · have hparts := components_join hbase hpath
    have hroot : Component.root ∉ counted path.toList := root_not_mem_counted path
    rw [Bool.eq_iff_iff, isAbsolute_iff, isAbsolute_iff, hparts, List.mem_append, or_iff_left hroot]

/-- A path that is joined to another one stands behind a slash, unless the other one is empty. -/
private theorem join_eq_or_below {path : String} (hpath : isAbsolute path = false) (base : String) :
    (join base path = path ∧ names base = []) ∨
      ∃ head, join base path = head ++ "/" ++ path ∧ names head = names base := by
  by_cases hbase : base = ""
  · subst hbase
    exact .inl ⟨join_empty hpath, by simp [names, segments, splitSlashes, leads]⟩
  · right
    obtain ⟨head, hjoined, rfl | rfl⟩ := join_eq_below hbase hpath
    · exact ⟨head, hjoined, rfl⟩
    · refine ⟨head, hjoined, ?_⟩
      rw [← String.append_empty (s := head ++ "/"), names_below]
      exact (List.append_nil _).symm

theorem names_join {path : String} (hpath : isAbsolute path = false) (base : String) :
    names (join base path) = names base ++ names path := by
  obtain ⟨hjoined, hnames⟩ | ⟨head, hjoined, hnames⟩ := join_eq_or_below hpath base
  · rw [hjoined, hnames, List.nil_append]
  · rw [hjoined, names_below, hnames]

private theorem way_join {path : String} (hpath : isAbsolute path = false) (base : String) :
    way (join base path) = names base ++ way path := by
  obtain ⟨hjoined, hnames⟩ | ⟨head, hjoined, hnames⟩ := join_eq_or_below hpath base
  · rw [hjoined, hnames, List.nil_append]
  · rw [hjoined, way_below, hnames]

theorem SameWay.join {base base' : String} (hbase : components base = components base') {path : String}
    (hpath : isAbsolute path = false) : SameWay (join base path) (join base' path) :=
  ⟨by rw [isAbsolute_join hpath, isAbsolute_join hpath, isAbsolute_congr hbase],
    by rw [way_join hpath, way_join hpath, names_congr hbase]⟩

/-- Something long that is added to a path leads somewhere. -/
theorem ended_append (path : String) {ending : String} (hending : '/' ∉ ending.toList) (hlong : 2 ≤ ending.length) :
    Ended (path ++ ending) := by
  obtain ⟨front, last, -, happend⟩ := segments_append hending path
  have hlen : 2 ≤ (last ++ ending).length := by
    rw [String.length_append]
    omega
  have hempty : last ++ ending ≠ "" := fun h => by rw [h] at hlen; exact absurd hlen (by decide)
  have hdot : last ++ ending ≠ "." := fun h => by rw [h] at hlen; exact absurd hlen (by decide)
  rw [ended_iff happend]
  simp [leads, hempty, hdot]

end ScriptHost.Path

namespace ScriptHost.Disk

open ScriptHost.Path

variable {d : Disk}

/-- A text that leads nowhere does not count if another one follows. -/
private theorem follow_idle {part : String} (hpart : leads part = false) {rest : List String} (hrest : rest ≠ [])
    (start : Place) : d.follow start (part :: rest) = d.follow start rest := by
  obtain ⟨next, rest, rfl⟩ := List.exists_cons_of_ne_nil hrest
  have hidle : part = "" ∨ part = "." := by
    simpa [leads, or_iff_not_imp_left] using hpart
  rw [follow]
  cases he : d.entry? start with
  | none => rw [follow, he]
  | some e =>
    cases e with
    | file content => rw [follow, he]
    | directory => exact if_pos hidle

private theorem follow_filter (parts : List String) {rest : List String} (hrest : rest ≠ []) (start : Place) :
    d.follow start (parts ++ rest) = d.follow start (parts.filter leads ++ rest) := by
  induction parts generalizing start with
  | nil => rfl
  | cons part parts ih =>
    cases hpart : leads part with
    | false =>
      rw [List.cons_append, follow_idle hpart (by simp [hrest]), ih, List.filter_cons_of_neg (by rw [hpart]; decide)]
    | true =>
      rw [List.filter_cons_of_pos hpart, List.cons_append, List.cons_append, follow, follow]
      simp only [ih]

theorem locate_of_relative {path : String} (ha : isAbsolute path = false) : d.locate path = .error .notFound := by
  unfold locate
  split
  · rename_i part rest hsegments
    exfalso
    unfold segments at hsegments
    unfold isAbsolute at ha
    cases hp : path.toList with
    | nil => simp [hp, splitSlashes] at hsegments
    | cons c cs =>
      have hc : c ≠ '/' := by simpa [hp] using ha
      obtain ⟨s, more, hs⟩ := exists_splitSlashes_cons cs
      rw [hp, splitSlashes_cons_of_ne hc hs] at hsegments
      simp at hsegments
  · rfl

/-- An absolute path leads over its way. -/
private theorem locate_of_isAbsolute {path : String} (ha : isAbsolute path = true) :
    d.locate path = d.follow [] (way path) := by
  obtain ⟨cs, hp⟩ : ∃ cs, path.toList = '/' :: cs := by
    unfold isAbsolute at ha
    cases hp : path.toList with
    | nil => simp [hp] at ha
    | cons c cs => exact ⟨cs, by rw [show c = '/' by simpa [hp] using ha]⟩
  have hsegments : segments path = "" :: segments (String.ofList cs) := by
    rw [segments, hp, splitSlashes_cons_slash, segments, String.toList_ofList]
    rfl
  obtain ⟨front, last, hrest⟩ := exists_segments_concat (String.ofList cs)
  have hlocate : d.locate path = d.follow [] (front ++ [last]) := by
    rw [locate, hsegments, hrest]
    cases front <;> rfl
  have hall : segments path = ("" :: front) ++ [last] := by
    rw [hsegments, hrest]
    rfl
  rw [hlocate, way_of_segments hall, follow_filter front (by simp), List.filter_cons_of_neg (by decide)]

theorem locate_congr {path path' : String} (h : SameWay path path') : d.locate path = d.locate path' := by
  have habsolute := h.absolute
  cases ha : isAbsolute path with
  | true =>
    rw [ha] at habsolute
    rw [locate_of_isAbsolute ha, locate_of_isAbsolute habsolute.symm, h.way]
  | false =>
    rw [ha] at habsolute
    rw [locate_of_relative ha, locate_of_relative habsolute.symm]

theorem isFile_congr {path path' : String} (h : SameWay path path') : d.isFile path = d.isFile path' := by
  rw [isFile, isFile, lookup, lookup, locate_congr h]

theorem isDirectory_congr {path path' : String} (h : SameWay path path') :
    d.isDirectory path = d.isDirectory path' := by
  rw [isDirectory, isDirectory, lookup, lookup, locate_congr h]

theorem text?_congr {path path' : String} (h : SameWay path path') : d.text? path = d.text? path' := by
  rw [text?, text?, read, read, lookup, lookup, locate_congr h]

private theorem follow_concat_idle {last : String} (hlast : leads last = false) (parts : List String)
    {start place : Place} (h : d.follow start (parts ++ [last]) = .ok place) : d.entry? place = some .directory := by
  have hdirectory : ∀ {start part rest}, d.follow start (part :: rest) = .ok place →
      d.entry? start = some .directory := by
    intro start part rest h
    rw [follow] at h
    split at h
    · cases h
    · cases h
    · assumption
  induction parts generalizing start with
  | nil =>
    have hstart := hdirectory h
    have hidle : last = "" ∨ last = "." := by simpa [leads, or_iff_not_imp_left] using hlast
    rw [List.nil_append, follow, hstart] at h
    simp only [if_pos hidle, follow, hstart] at h
    cases h
    exact hstart
  | cons part parts ih =>
    rw [List.cons_append] at h
    have hstart := hdirectory h
    rw [follow, hstart] at h
    simp only at h
    split at h
    · exact ih h
    · split at h
      · exact ih h
      · exact ih h

theorem lookup_of_isFile {path : String} (hf : d.isFile path = true) :
    ∃ content, d.lookup path = .ok (.file content) := by
  unfold isFile at hf
  split at hf
  · exact ⟨_, ‹_›⟩
  · cases hf

theorem isAbsolute_of_isFile {path : String} (hf : d.isFile path = true) : isAbsolute path = true := by
  obtain ⟨content, hcontent⟩ := lookup_of_isFile hf
  by_contra ha
  rw [lookup, locate_of_relative (by simpa using ha)] at hcontent
  cases hcontent

theorem ended_of_isFile {path : String} (h : d.isFile path = true) : Ended path := by
  obtain ⟨content, hfile⟩ := lookup_of_isFile h
  obtain ⟨front, last, hsegments⟩ := exists_segments_concat path
  rw [ended_iff hsegments]
  by_contra hlast
  rw [lookup, locate_of_isAbsolute (isAbsolute_of_isFile h), way_of_segments hsegments] at hfile
  cases hplace : d.follow [] (front.filter leads ++ [last]) with
  | error e =>
    rw [hplace] at hfile
    cases hfile
  | ok place =>
    have hentry := follow_concat_idle (Bool.eq_false_iff.2 hlast) _ hplace
    rw [hplace] at hfile
    simp [Except.bind, hentry] at hfile

end ScriptHost.Disk
