import LiteralLint.FileSystem

/-!
# Places and paths

What a path leads to depends on the directories on the way, but a path without names that lead up
leads to the place that its components spell, if it leads anywhere. So such paths and places can
be exchanged, and what a change to the file system does to one place says what it does to the path.

The names in a file system are the names that a system gives to files: not empty, without a
slash, and none of the names that stand for directories. Paths of such names are determined by their
written form.

## Main definitions

* `Path.IsName`: the name of a file.
* `FileSystem.WellNamed`: a file system in which all files have such names.

## Main results

* `Path.components_ofText_toText`: a path of names is determined by its text.
* `FileSystem.eq_of_locate`: where a path without names that lead up leads.
* `FileSystem.mem_filesBelow`: the files below a directory.
* `FileSystem.sameFiles_makeAlong`: making directories leaves all files alone.
* `FileSystem.read_of_write`: what is written is read.
-/

namespace LiteralLint

/-! ## Written paths -/

namespace Text

theorem splitOn_of_not_mem {sep : CodePoint} {t : Text} (h : sep ∉ t) : splitOn sep t = [t] := by
  induction t with
  | nil => rfl
  | cons c t ih =>
      rw [List.mem_cons, not_or] at h
      rw [splitOn, if_neg (Ne.symm h.1), ih h.2]

theorem splitOn_append {sep : CodePoint} {t : Text} (h : sep ∉ t) (rest : Text) :
    splitOn sep (t ++ sep :: rest) = t :: splitOn sep rest := by
  induction t with
  | nil =>
      show splitOn sep (sep :: rest) = _
      rw [splitOn, if_pos rfl]
  | cons c t ih =>
      rw [List.mem_cons, not_or] at h
      rw [List.cons_append, splitOn, if_neg (Ne.symm h.1), ih h.2]

theorem join_append {sep : CodePoint} {ss ts : List Text} (hs : ss ≠ [])
    (ht : ts ≠ []) :
    join [sep] (ss ++ ts) = join [sep] ss ++ sep :: join [sep] ts := by
  induction ss with
  | nil => exact absurd rfl hs
  | cons s ss ih =>
      cases ss with
      | nil =>
          obtain ⟨t, ts, rfl⟩ := List.exists_cons_of_ne_nil ht
          show s ++ [sep] ++ join [sep] (t :: ts) = s ++ sep :: join [sep] (t :: ts)
          rw [List.append_assoc, List.singleton_append]
      | cons u ss =>
          have hrest := ih (by simp)
          rw [List.cons_append] at hrest ⊢
          show s ++ [sep] ++ join [sep] (u :: (ss ++ ts)) =
            s ++ [sep] ++ join [sep] (u :: ss) ++ sep :: join [sep] ts
          rw [hrest, List.append_assoc, List.append_assoc, List.append_assoc]

/-- Pieces without the separator come back from the text that joins them. -/
theorem splitOn_join {sep : CodePoint} {ts : List Text} (hne : ts ≠ []) (h : ∀ t ∈ ts, sep ∉ t) :
    splitOn sep (join [sep] ts) = ts := by
  induction ts with
  | nil => exact absurd rfl hne
  | cons t ts ih =>
      cases ts with
      | nil => exact splitOn_of_not_mem (h t (by simp))
      | cons u ts =>
          rw [join, List.append_assoc, List.singleton_append, splitOn_append (h t (by simp)),
            ih (by simp) fun v hv => h v (by simp [hv])]
          simp

/-- No piece holds the separator. -/
theorem not_mem_of_mem_splitOn {sep : CodePoint} {t : Text} :
    ∀ piece ∈ splitOn sep t, sep ∉ piece := by
  induction t with
  | nil => simp [splitOn]
  | cons c t ih =>
      rw [splitOn]
      by_cases hc : c = sep
      · rw [if_pos hc, List.forall_mem_cons]
        exact ⟨by simp, ih⟩
      · rw [if_neg hc]
        split
        · simp [Ne.symm hc]
        · rename_i piece pieces hsplit
          rw [hsplit, List.forall_mem_cons] at ih
          rw [List.forall_mem_cons]
          refine ⟨?_, ih.2⟩
          rw [List.mem_cons, not_or]
          exact ⟨Ne.symm hc, ih.1⟩

end Text

namespace Path

theorem relativeTo?_of_eq {p base : Path} {rest : List Text} (hstart : p.start = base.start)
    (h : p.components = base.components ++ rest) :
    p.relativeTo? base = some ⟨.current, rest⟩ := by
  have hprefix : base.components.isPrefixOf p.components = true :=
    List.isPrefixOf_iff_prefix.2 ⟨rest, h.symm⟩
  rw [relativeTo?, hprefix, hstart, h, List.drop_left]
  simp

/-- The name of a file: not empty, without a slash, and no full stop or two. -/
structure IsName (name : Text) : Prop where
  isComponent : Path.isComponent name = true
  slash_not_mem : Path.slash ∉ name
  ne_up : name ≠ Path.up

instance (name : Text) : Decidable (IsName name) :=
  decidable_of_iff (Path.isComponent name = true ∧ Path.slash ∉ name ∧ name ≠ Path.up)
    ⟨fun ⟨h, h', h''⟩ => ⟨h, h', h''⟩, fun ⟨h, h', h''⟩ => ⟨h, h', h''⟩⟩

/-- The components of a path are not empty, so its text is no full stop in their place. -/
theorem toText_current {names : List Text} (hne : names ≠ [])
    (h : ∀ n ∈ names, isComponent n = true) : toText ⟨.current, names⟩ = joined names := by
  cases names with
  | nil => exact absurd rfl hne
  | cons name names =>
      have hname : name ≠ [] := by
        rintro rfl
        exact absurd (h [] (by simp)) (by decide)
      obtain ⟨c, rest, hcons⟩ := List.exists_cons_of_ne_nil hname
      subst hcons
      cases names <;> rfl

/-- **A path of names is determined by its text.** -/
theorem components_ofText_toText {names : List Text} (h : ∀ n ∈ names, IsName n) :
    (ofText (toText ⟨.current, names⟩)).components = names := by
  cases names with
  | nil => decide
  | cons name names =>
      rw [toText_current (by simp) fun n hn => (h n hn).isComponent]
      show (Text.splitOn slash (Text.join [slash] (name :: names))).filter isComponent = _
      rw [Text.splitOn_join (by simp) fun t ht => (h t ht).slash_not_mem, List.filter_eq_self]
      exact fun t ht => (h t ht).isComponent

end Path

/-! ## Tables -/

/-- What a table says about a key that occurs once. -/
theorem lookup_of_mem {α β : Type} [BEq α] [LawfulBEq α] {a : α} {b : β} {table : List (α × β)}
    (hnodup : (table.map Prod.fst).Nodup) (h : (a, b) ∈ table) : table.lookup a = some b := by
  obtain ⟨before, after, rfl⟩ := List.append_of_mem h
  refine List.lookup_eq_some_iff.2 ⟨before, after, rfl, fun m hm => ?_⟩
  rw [List.map_append, List.map_cons] at hnodup
  have hne : a ≠ m.1 := by
    rintro rfl
    exact (List.nodup_append.1 hnodup).2.2 m.1 (List.mem_map_of_mem hm) m.1 (by simp) rfl
  simp [hne]

namespace FileSystem

/-! ## Where a path leads -/

/-- A path from the root without names that lead up. -/
structure Straight (p : Path) : Prop where
  isAbsolute : p.isAbsolute = true
  up_not_mem : Path.up ∉ p.components

variable {fs : FileSystem}

theorem eq_append_of_walk {names : List Text} :
    ∀ {start place : Place}, Path.up ∉ names → fs.walk start names = .ok place →
      place = start ++ names := by
  induction names with
  | nil =>
      intro start place _ h
      cases h
      exact (List.append_nil start).symm
  | cons name names ih =>
      intro start place hup h
      rw [List.mem_cons, not_or] at hup
      rw [walk] at h
      split at h
      · cases h
      · cases h
      · rw [if_neg (Ne.symm hup.1)] at h
        rw [ih hup.2 h, List.append_assoc, List.singleton_append]

/-- **Where a straight path leads**, if all of its directories are there. -/
theorem eq_of_locate {p : Path} (hp : Straight p) {place : Place} (h : fs.locate p = .ok place) :
    place = p.components := by
  unfold locate startOf at h
  rw [if_pos hp.isAbsolute] at h
  exact eq_append_of_walk hp.up_not_mem h

theorem mem_entries_of_at? {place : Place} {f : File} (h : fs.at? place = some (.file f)) :
    (place, Entry.file f) ∈ fs.entries := by
  cases place with
  | nil => cases h
  | cons name rest =>
      obtain ⟨before, after, hentries, -⟩ := List.lookup_eq_some_iff.1 h
      rw [hentries]
      simp

theorem at?_of_entry {p : Path} (hp : Straight p) {e : Entry} (h : fs.entry p = .ok e) :
    fs.at? p.components = some e := by
  unfold entry at h
  cases hplace : fs.locate p with
  | error r =>
      rw [hplace] at h
      cases h
  | ok place =>
      rw [hplace] at h
      cases eq_of_locate hp hplace
      cases hat : fs.at? p.components with
      | none =>
          simp only [bind, Except.bind, hat] at h
          cases h
      | some e' =>
          simp only [bind, Except.bind, hat] at h
          cases h
          rfl

theorem entry_of_file? {p : Path} {f : File} (h : fs.file? p = some f) :
    fs.entry p = .ok (.file f) := by
  unfold file? entry? at h
  cases hentry : fs.entry p with
  | error r => simp [hentry, Except.toOption] at h
  | ok e =>
      cases e with
      | directory => simp [hentry, Except.toOption] at h
      | file g =>
          simp only [hentry, Except.toOption, Option.some.injEq] at h
          rw [h]

/-- The file of a straight path stands at its place. -/
theorem at?_of_file? {p : Path} (hp : Straight p) {f : File} (h : fs.file? p = some f) :
    fs.at? p.components = some (.file f) :=
  at?_of_entry hp (entry_of_file? h)

/-- What is read is the contents of the file. -/
theorem file?_of_read {p : Path} {b : Bytes} (h : fs.read p = .ok b) :
    ∃ f, fs.file? p = some f ∧ f.bytes = b := by
  unfold read at h
  split at h
  · cases h
  · cases h
  · rename_i f hentry
    split at h
    · cases h
      exact ⟨f, by simp [file?, entry?, hentry, Except.toOption], rfl⟩
    · cases h

theorem readable_of_read {p : Path} {b : Bytes} (h : fs.read p = .ok b) {f : File}
    (hf : fs.file? p = some f) : f.readable = true := by
  unfold read at h
  rw [entry_of_file? hf] at h
  dsimp only at h
  split at h
  · assumption
  · cases h

theorem read_of_file? {p : Path} {f : File} (h : fs.file? p = some f) (hf : f.readable = true) :
    fs.read p = .ok f.bytes := by
  unfold read
  rw [entry_of_file? h]
  simp only [hf, if_true]

/-- The paths of the files below a directory are straight if the file names are. -/
theorem mem_filesBelow {directory p : Path} (hdir : Straight directory)
    (h : p ∈ fs.filesBelow directory) :
    p.start = directory.start ∧ directory.components <+: p.components ∧
      ∃ f, (p.components, Entry.file f) ∈ fs.entries := by
  unfold filesBelow at h
  split at h
  · rename_i place _ hplace
    cases eq_of_locate hdir hplace
    rw [List.mem_mergeSort, List.mem_filterMap] at h
    obtain ⟨⟨there, e⟩, hmem, hp⟩ := h
    cases e with
    | directory => cases hp
    | file f =>
        simp only at hp
        split at hp
        · rename_i hprefix
          cases hp
          obtain ⟨rest, rfl⟩ := List.isPrefixOf_iff_prefix.1 hprefix
          rw [List.drop_left]
          exact ⟨rfl, ⟨rest, rfl⟩, f, hmem⟩
        · cases hp
  · cases h

/-! ## Names -/

/-- All files have names that a system gives to files, and so does the current directory. -/
structure WellNamed (fs : FileSystem) : Prop where
  files : ∀ place f, (place, Entry.file f) ∈ fs.entries → ∀ n ∈ place, Path.IsName n
  current : ∀ n ∈ fs.current, Path.IsName n

theorem withoutUps_names {P : Text → Prop} :
    ∀ {names : List Text} {place : Place}, (∀ n ∈ place, P n) →
      (∀ n ∈ names, n ≠ Path.up → P n) → ∀ n ∈ withoutUps place names, P n := by
  intro names
  induction names with
  | nil =>
      intro place hplace _
      exact hplace
  | cons name names ih =>
      intro place hplace hnames
      rw [withoutUps]
      refine ih ?_ fun n hn => hnames n (by simp [hn])
      by_cases hup : name = Path.up
      · rw [if_pos hup]
        exact fun n hn => hplace n (List.dropLast_subset _ hn)
      · rw [if_neg hup]
        intro n hn
        rcases List.mem_append.1 hn with hn | hn
        · exact hplace n hn
        · rw [List.mem_singleton.1 hn]
          exact hnames name (by simp) hup

/-- A written path is resolved to a path of names. -/
theorem resolve_names (hfs : fs.WellNamed) (raw : Text) :
    ∀ n ∈ (fs.resolve (Path.ofText raw)).components, Path.IsName n := by
  refine withoutUps_names ?_ ?_
  · unfold startOf
    split
    · exact fun n hn => absurd hn (by simp)
    · exact hfs.current
  · intro n hn hup
    obtain ⟨hpiece, hcomponent⟩ := List.mem_filter.1 hn
    exact ⟨hcomponent, Text.not_mem_of_mem_splitOn n hpiece, hup⟩

theorem straight_of_names {p : Path} (habsolute : p.isAbsolute = true)
    (h : ∀ n ∈ p.components, Path.IsName n) : Straight p :=
  ⟨habsolute, fun hup => (h Path.up hup).ne_up rfl⟩

theorem straight_resolve (hfs : fs.WellNamed) (raw : Text) :
    Straight (fs.resolve (Path.ofText raw)) := by
  refine straight_of_names ?_ (resolve_names hfs raw)
  unfold resolve Path.isAbsolute
  cases (Path.ofText raw).start <;> rfl

/-! ## Changes -/

theorem lookup_filter_ne {place q : Place} (h : q ≠ place) (entries : List (Place × Entry)) :
    (entries.filter fun m => m.1 != place).lookup q = entries.lookup q := by
  induction entries with
  | nil => rfl
  | cons m entries ih =>
      obtain ⟨there, e⟩ := m
      by_cases hthere : there = place
      · have hq : (q == there) = false := beq_eq_false_iff_ne.2 (hthere ▸ h)
        rw [List.filter_cons_of_neg (by simp [hthere]), ih, List.lookup_cons, hq]
      · rw [List.filter_cons_of_pos (by simp [hthere]), List.lookup_cons, List.lookup_cons, ih]

theorem at?_put_self {place : Place} (h : place ≠ []) (e : Entry) :
    (fs.put place e).at? place = some e := by
  cases place with
  | nil => exact absurd rfl h
  | cons name rest => simp [at?, put]

theorem at?_put_of_ne {place q : Place} (h : q ≠ place) (e : Entry) :
    (fs.put place e).at? q = fs.at? q := by
  cases q with
  | nil => rfl
  | cons name rest =>
      have hbeq : (name :: rest == place) = false := beq_eq_false_iff_ne.2 h
      show List.lookup _ ((place, e) :: _) = List.lookup _ _
      rw [List.lookup_cons, hbeq]
      exact lookup_filter_ne h fs.entries

/-- A file system with the same files as another, and the same current directory. -/
structure SameFiles (fs fs' : FileSystem) : Prop where
  current : fs'.current = fs.current
  files : ∀ q f, fs'.at? q = some (.file f) ↔ fs.at? q = some (.file f)
  entries : ∀ q f, (q, Entry.file f) ∈ fs'.entries → (q, Entry.file f) ∈ fs.entries

theorem SameFiles.refl (fs : FileSystem) : SameFiles fs fs :=
  ⟨rfl, fun _ _ => Iff.rfl, fun _ _ h => h⟩

theorem SameFiles.trans {fs fs' fs'' : FileSystem} (h : SameFiles fs fs')
    (h' : SameFiles fs' fs'') : SameFiles fs fs'' :=
  ⟨h'.current.trans h.current, fun q f => (h'.files q f).trans (h.files q f),
    fun q f hmem => h.entries q f (h'.entries q f hmem)⟩

theorem sameFiles_put_directory {place : Place} (h : fs.at? place = none) :
    SameFiles fs (fs.put place .directory) := by
  have hne : place ≠ [] := by
    rintro rfl
    cases h
  refine ⟨rfl, ?_, ?_⟩
  · intro q f
    by_cases hq : q = place
    · subst hq
      rw [at?_put_self hne, h]
      simp
    · rw [at?_put_of_ne hq]
  · intro q f hmem
    rcases List.mem_cons.1 hmem with heq | hmem
    · cases heq
    · exact (List.mem_filter.1 hmem).1

/-- **Making directories leaves all files alone.** -/
theorem sameFiles_makeAlong {names : List Text} :
    ∀ {fs fs' : FileSystem} {place : Place}, fs.makeAlong place names = .ok fs' →
      SameFiles fs fs' := by
  induction names with
  | nil =>
      intro fs fs' place h
      rw [makeAlong] at h
      split at h
      · cases h
      · cases h
        exact SameFiles.refl fs
  | cons name names ih =>
      intro fs fs' place h
      rw [makeAlong] at h
      split at h
      · cases h
      · have hmade : ∀ next : Place,
            SameFiles fs (if (fs.at? next).isSome then fs else fs.put next .directory) := by
          intro next
          split
          · exact SameFiles.refl fs
          · rename_i hnone
            exact sameFiles_put_directory (by simpa using hnone)
        exact (hmade _).trans (ih h)

theorem sameFiles_makeDirectories {p : Path} {fs' : FileSystem}
    (h : fs.makeDirectories p = .ok fs') : SameFiles fs fs' := by
  unfold makeDirectories at h
  cases hmake : fs.makeAlong (fs.startOf p) p.components with
  | error r =>
      rw [hmake] at h
      cases h
  | ok made =>
      rw [hmake] at h
      cases h
      exact sameFiles_makeAlong hmake

/-- Directories on the way stay where they are when something is put in a place that is none. -/
theorem walk_put {place : Place} (hplace : fs.at? place ≠ some .directory) (e : Entry)
    {names : List Text} :
    ∀ {start target : Place}, fs.walk start names = .ok target →
      (fs.put place e).walk start names = .ok target := by
  induction names with
  | nil =>
      intro start target h
      exact h
  | cons name names ih =>
      intro start target h
      rw [walk] at h ⊢
      split at h
      · cases h
      · cases h
      · rename_i hdirectory
        have hne : start ≠ place := by
          rintro rfl
          exact hplace hdirectory
        rw [at?_put_of_ne hne, hdirectory]
        exact ih h

/-- What is written is there. -/
theorem entry_of_write {p : Path} {f : File} {fs' : FileSystem} (h : fs.write p f = .ok fs') :
    fs'.entry p = .ok (.file f) := by
  unfold write at h
  cases hplace : fs.locate p with
  | error r =>
      rw [hplace] at h
      cases h
  | ok place =>
      rw [hplace] at h
      have hput : fs.at? place ≠ some .directory ∧ fs' = fs.put place (.file f) := by
        dsimp only at h
        split at h
        · cases h
        · cases h
        · cases h
        · rename_i hnone
          cases h
          exact ⟨hnone, rfl⟩
      obtain ⟨hnone, rfl⟩ := hput
      have hne : place ≠ [] := by
        rintro rfl
        exact hnone rfl
      have hlocate : (fs.put place (.file f)).locate p = .ok place := walk_put hnone _ hplace
      unfold entry
      rw [hlocate]
      simp only [bind, Except.bind, at?_put_self hne]
      rfl

/-- **What is written is read.** -/
theorem read_of_write {p : Path} {f : File} {fs' : FileSystem} (h : fs.write p f = .ok fs')
    (hf : f.readable = true) : fs'.read p = .ok f.bytes := by
  rw [read, entry_of_write h]
  simp only [hf, if_true]

/-- Whether a file can be put somewhere does not depend on what it holds. -/
theorem write_eq (fs : FileSystem) (p : Path) :
    (∃ fault, ∀ g, fs.write p g = .error fault) ∨
      ∃ place, place ≠ [] ∧ fs.locate p = .ok place ∧
        ∀ g, fs.write p g = .ok (fs.put place (.file g)) := by
  unfold write
  cases hplace : fs.locate p with
  | error r => exact Or.inl ⟨⟨r, p⟩, fun g => rfl⟩
  | ok place =>
      have hroot : fs.at? place ≠ some .directory → place ≠ [] := by
        rintro h rfl
        exact h rfl
      cases hat : fs.at? place with
      | none =>
          cases habove : fs.at? place.dropLast with
          | none => exact Or.inl ⟨_, fun g => by simp only [hat, habove]; rfl⟩
          | some above =>
              cases above with
              | directory =>
                  refine Or.inr ⟨place, hroot (by simp [hat]), rfl, fun g => ?_⟩
                  simp only [hat, habove]
              | file above => exact Or.inl ⟨_, fun g => by simp only [hat, habove]; rfl⟩
      | some e =>
          cases e with
          | directory => exact Or.inl ⟨_, fun g => by simp only [hat]; rfl⟩
          | file old =>
              cases habove : fs.at? place.dropLast with
              | none => exact Or.inl ⟨_, fun g => by simp only [hat, habove]; rfl⟩
              | some above =>
                  cases above with
                  | directory =>
                      refine Or.inr ⟨place, hroot (by simp [hat]), rfl, fun g => ?_⟩
                      simp only [hat, habove]
                  | file above => exact Or.inl ⟨_, fun g => by simp only [hat, habove]; rfl⟩

end FileSystem

end LiteralLint
