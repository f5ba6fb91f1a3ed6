import DecAustrum.Python.JsonRoundTrip

/-!
# Key order

Sorting the members of every object keeps what a dictionary means: the members
found, what may be written, and the strings inside.
-/
namespace DecAustrum.Python.Json

/-! ## Looking up -/

theorem lookup_cons (key k : Str) (v : Json) (fields : List (Str × Json)) :
    lookup key ((k, v) :: fields) = if k = key then some v else lookup key fields := by
  unfold lookup
  rw [List.find?_cons]
  split <;> simp_all

theorem lookup_eq_some_iff (key : Str) (fields : List (Str × Json)) (v : Json)
    (distinct : (fields.map Prod.fst).Nodup) :
    lookup key fields = some v ↔ (key, v) ∈ fields := by
  induction fields with
  | nil => simp [lookup]
  | cons field fields ih =>
    obtain ⟨k, w⟩ := field
    rw [List.map_cons, List.nodup_cons] at distinct
    rw [lookup_cons]
    split
    · next same =>
      subst same
      have fresh : (k, v) ∉ fields := fun member =>
        distinct.1 (List.mem_map.mpr ⟨(k, v), member, rfl⟩)
      simp [fresh, eq_comm]
    · next other =>
      rw [ih distinct.2]
      simp [Ne.symm other]

theorem lookup_perm (key : Str) (fields permuted : List (Str × Json)) (same : fields.Perm permuted)
    (distinct : (fields.map Prod.fst).Nodup) : lookup key permuted = lookup key fields := by
  have permutedDistinct := (same.map Prod.fst).nodup_iff.mp distinct
  apply Option.ext
  intro v
  rw [lookup_eq_some_iff key permuted v permutedDistinct, lookup_eq_some_iff key fields v distinct]
  exact same.mem_iff.symm

theorem lookup_map (key : Str) (fields : List (Str × Json)) (f : Json → Json) :
    lookup key (fields.map fun field => (field.1, f field.2)) = (lookup key fields).map f := by
  induction fields with
  | nil => rfl
  | cons field fields ih =>
    obtain ⟨k, v⟩ := field
    rw [List.map_cons, lookup_cons, lookup_cons, ih]
    split <;> rfl

private theorem keys_map (fields : List (Str × Json)) (f : Json → Json) :
    (fields.map fun field => (field.1, f field.2)).map Prod.fst = fields.map Prod.fst := by
  simp

/-- A dictionary's members, sorted. -/
theorem get?_sortKeys (key : Str) (v : Json) (unique : v.uniqueKeys = true) :
    get? key v.sortKeys = (get? key v).map sortKeys := by
  cases v with
  | obj fields =>
    simp only [uniqueKeys, Bool.and_eq_true, decide_eq_true_eq] at unique
    simp only [sortKeys, get?, sortKeysFields_eq]
    rw [lookup_perm key _ _ (List.perm_insertionSort keyLe _).symm (by rw [keys_map]; exact unique.1),
      lookup_map]
  | _ => rfl

/-! ## What sorting keeps -/

private theorem keyLe_trans : IsTrans (Str × Json) keyLe := ⟨fun _ _ _ => le_trans⟩

private theorem keyLe_total : Std.Total (α := Str × Json) keyLe := ⟨fun a b => le_total a.1 b.1⟩

theorem sortKeys_sortKeys (v : Json) : v.sortKeys.sortKeys = v.sortKeys := by
  induction v using Json.inductionOn with
  | arr items ih =>
    simp only [sortKeys, sortKeysItems_eq, List.map_map, Json.arr.injEq]
    exact List.map_congr_left ih
  | obj fields ih =>
    simp only [sortKeys, sortKeysFields_eq, Json.obj.injEq]
    have fixed : ((fields.map fun field => (field.1, field.2.sortKeys)).insertionSort keyLe).map
        (fun field => (field.1, field.2.sortKeys)) =
        (fields.map fun field => (field.1, field.2.sortKeys)).insertionSort keyLe := by
      conv_rhs => rw [← List.map_id ((fields.map fun field =>
        (field.1, field.2.sortKeys)).insertionSort keyLe)]
      refine List.map_congr_left fun field member => ?_
      rw [List.mem_insertionSort] at member
      rcases List.mem_map.mp member with ⟨original, present, rfl⟩
      exact Prod.ext rfl (ih original present)
    rw [fixed]
    have := keyLe_trans
    have := keyLe_total
    exact (List.pairwise_insertionSort keyLe _).insertionSort_eq
  | _ => rfl

theorem encodable_sortKeys (v : Json) : v.sortKeys.encodable = v.encodable := by
  induction v using Json.inductionOn with
  | arr items ih =>
    rw [sortKeys, sortKeysItems_eq, encodable, encodable, Bool.eq_iff_iff, encodableItems_iff,
      encodableItems_iff]
    simp only [List.forall_mem_map]
    exact forall₂_congr fun v member => by rw [ih v member]
  | obj fields ih =>
    rw [sortKeys, sortKeysFields_eq, encodable, encodable, Bool.eq_iff_iff, encodableFields_iff,
      encodableFields_iff]
    simp only [List.mem_insertionSort, List.forall_mem_map]
    exact forall₂_congr fun field member => by rw [ih field member]
  | _ => rfl

theorem uniqueKeys_sortKeys (v : Json) : v.sortKeys.uniqueKeys = v.uniqueKeys := by
  induction v using Json.inductionOn with
  | arr items ih =>
    rw [sortKeys, sortKeysItems_eq, uniqueKeys, uniqueKeys, Bool.eq_iff_iff, uniqueKeysItems_iff,
      uniqueKeysItems_iff]
    simp only [List.forall_mem_map]
    exact forall₂_congr fun v member => by rw [ih v member]
  | obj fields ih =>
    have keys := ((List.perm_insertionSort keyLe
      (fields.map fun field => (field.1, field.2.sortKeys))).map Prod.fst).nodup_iff
    rw [keys_map] at keys
    rw [sortKeys, sortKeysFields_eq, uniqueKeys, uniqueKeys, Bool.eq_iff_iff, Bool.and_eq_true,
      Bool.and_eq_true, decide_eq_true_eq, decide_eq_true_eq, uniqueKeysFields_iff,
      uniqueKeysFields_iff, keys]
    simp only [List.mem_insertionSort, List.forall_mem_map]
    exact and_congr_right fun _ => forall₂_congr fun field member => by rw [ih field member]
  | _ => rfl

theorem insertionSort_insertionSort (fields : List (Str × Json)) :
    (fields.insertionSort keyLe).insertionSort keyLe = fields.insertionSort keyLe := by
  have := keyLe_trans
  have := keyLe_total
  exact (List.pairwise_insertionSort keyLe _).insertionSort_eq

/-! The members of an object, each value with its keys in order. -/

theorem sortKeysFields_insertionSort (fields : List (Str × Json)) :
    sortKeysFields (fields.insertionSort keyLe) = (sortKeysFields fields).insertionSort keyLe := by
  rw [sortKeysFields_eq, sortKeysFields_eq]
  exact List.map_insertionSort keyLe keyLe _ fields fun _ _ _ _ => Iff.rfl

theorem sortKeysFields_sortKeysFields (fields : List (Str × Json)) :
    sortKeysFields (sortKeysFields fields) = sortKeysFields fields := by
  simp only [sortKeysFields_eq, List.map_map]
  exact List.map_congr_left fun field _ => Prod.ext rfl field.2.sortKeys_sortKeys

theorem encodable_sortKeysFields (fields : List (Str × Json)) :
    (Json.obj (sortKeysFields fields)).encodable = (Json.obj fields).encodable := by
  rw [sortKeysFields_eq, encodable, encodable, Bool.eq_iff_iff, encodableFields_iff,
    encodableFields_iff]
  simp only [List.forall_mem_map, encodable_sortKeys]

theorem uniqueKeys_sortKeysFields (fields : List (Str × Json)) :
    (Json.obj (sortKeysFields fields)).uniqueKeys = (Json.obj fields).uniqueKeys := by
  rw [sortKeysFields_eq, uniqueKeys, uniqueKeys, keys_map, Bool.eq_iff_iff, Bool.and_eq_true,
    Bool.and_eq_true, uniqueKeysFields_iff, uniqueKeysFields_iff]
  simp only [List.forall_mem_map, uniqueKeys_sortKeys]

theorem mem_stringsItems (s : Str) (items : List Json) :
    s ∈ stringsItems items ↔ ∃ v ∈ items, s ∈ v.strings := by
  induction items with
  | nil => simp [stringsItems]
  | cons v items ih => simp [stringsItems, ih]

theorem mem_stringsFields (s : Str) (fields : List (Str × Json)) :
    s ∈ stringsFields fields ↔ ∃ field ∈ fields, s = field.1 ∨ s ∈ field.2.strings := by
  induction fields with
  | nil => simp [stringsFields]
  | cons field fields ih => simp [stringsFields, ih, or_assoc]

theorem mem_strings_sortKeys (s : Str) (v : Json) : s ∈ v.sortKeys.strings ↔ s ∈ v.strings := by
  induction v using Json.inductionOn with
  | arr items ih =>
    rw [sortKeys, sortKeysItems_eq, strings, strings, mem_stringsItems, mem_stringsItems]
    simp only [List.mem_map, exists_exists_and_eq_and]
    exact exists_congr fun v => and_congr_right fun member => ih v member
  | obj fields ih =>
    rw [sortKeys, sortKeysFields_eq, strings, strings, mem_stringsFields, mem_stringsFields]
    simp only [List.mem_insertionSort, List.mem_map, exists_exists_and_eq_and]
    exact exists_congr fun field => and_congr_right fun member => by rw [ih field member]
  | _ => rfl

/-- A key is one of the strings of a value. -/
theorem mem_strings_of_mem_keys (key : Str) (v : Json) (member : key ∈ v.keys) :
    key ∈ v.strings := by
  induction v using Json.inductionOn with
  | arr items ih =>
    rw [keys, mem_keysItems] at member
    obtain ⟨v, present, inside⟩ := member
    exact (mem_stringsItems key items).mpr ⟨v, present, ih v present inside⟩
  | obj fields ih =>
    rw [keys, mem_keysFields] at member
    obtain ⟨field, present, here | inside⟩ := member
    · exact (mem_stringsFields key fields).mpr ⟨field, present, .inl here⟩
    · exact (mem_stringsFields key fields).mpr ⟨field, present, .inr (ih field present inside)⟩
  | _ => simp [keys] at member

theorem nesting_sortKeys (v : Json) : v.sortKeys.nesting = v.nesting := by
  induction v using Json.inductionOn with
  | arr items ih =>
    apply Nat.le_antisymm
    all_goals
      rw [sortKeys, sortKeysItems_eq, nesting, nesting, Nat.add_le_add_iff_right,
        nestingItems_le_iff]
    · simp only [List.forall_mem_map]
      intro v member
      rw [ih v member]
      exact (nestingItems_le_iff _ items).mp le_rfl v member
    · intro v member
      rw [← ih v member]
      exact (nestingItems_le_iff _ _).mp le_rfl v.sortKeys (List.mem_map_of_mem member)
  | obj fields ih =>
    apply Nat.le_antisymm
    all_goals
      rw [sortKeys, sortKeysFields_eq, nesting, nesting, Nat.add_le_add_iff_right,
        nestingFields_le_iff]
    · simp only [List.mem_insertionSort, List.forall_mem_map]
      intro field member
      rw [ih field member]
      exact (nestingFields_le_iff _ fields).mp le_rfl field member
    · intro field member
      rw [← ih field member]
      apply (nestingFields_le_iff _ _).mp le_rfl (field.1, field.2.sortKeys)
      rw [List.mem_insertionSort]
      exact List.mem_map_of_mem member
  | _ => rfl

theorem mem_keys_sortKeys (key : Str) (v : Json) : key ∈ v.sortKeys.keys ↔ key ∈ v.keys := by
  induction v using Json.inductionOn with
  | arr items ih =>
    rw [sortKeys, sortKeysItems_eq, keys, keys, mem_keysItems, mem_keysItems]
    simp only [List.mem_map, exists_exists_and_eq_and]
    exact exists_congr fun v => and_congr_right fun member => ih v member
  | obj fields ih =>
    rw [sortKeys, sortKeysFields_eq, keys, keys, mem_keysFields, mem_keysFields]
    simp only [List.mem_insertionSort, List.mem_map, exists_exists_and_eq_and]
    exact exists_congr fun field => and_congr_right fun member => by rw [ih field member]
  | _ => rfl

theorem readable_sortKeys (ensureAscii : Bool) (v : Json) :
    Readable ensureAscii v.sortKeys ↔ Readable ensureAscii v := by
  simp only [Readable, mem_strings_sortKeys]

/-! ## Dictionaries -/

private theorem assign_fresh (key : Str) (value : Json) (fields : List (Str × Json))
    (fresh : key ∉ fields.map Prod.fst) : assign key value fields = fields ++ [(key, value)] := by
  induction fields with
  | nil => rfl
  | cons field fields ih =>
    obtain ⟨k, v⟩ := field
    simp only [List.map_cons, List.mem_cons, not_or] at fresh
    rw [assign, if_neg (Ne.symm fresh.1), ih fresh.2, List.cons_append]

private theorem assign_keys (key : Str) (value : Json) (fields : List (Str × Json)) :
    (assign key value fields).map Prod.fst =
      if key ∈ fields.map Prod.fst then fields.map Prod.fst else fields.map Prod.fst ++ [key] := by
  induction fields with
  | nil => simp [assign]
  | cons field fields ih =>
    obtain ⟨k, v⟩ := field
    rw [assign]
    by_cases same : k = key
    · simp [same]
    · rw [if_neg same, List.map_cons, ih]
      by_cases later : key ∈ fields.map Prod.fst
      · simp [later]
      · simp [later, Ne.symm same]

private theorem mem_assign {key : Str} {value : Json} {fields : List (Str × Json)}
    {field : Str × Json} (member : field ∈ assign key value fields) :
    field = (key, value) ∨ field ∈ fields := by
  induction fields with
  | nil => exact .inl (List.mem_singleton.mp member)
  | cons head fields ih =>
    obtain ⟨k, v⟩ := head
    rw [assign] at member
    split at member
    · rcases List.mem_cons.mp member with rfl | later
      · simp_all
      · exact .inr (List.mem_cons_of_mem _ later)
    · rcases List.mem_cons.mp member with rfl | later
      · exact .inr (by simp)
      · exact (ih later).imp_right (List.mem_cons_of_mem _)

/-- A dictionary has distinct keys. -/
theorem toDict_nodup (fields : List (Str × Json)) : ((toDict fields).map Prod.fst).Nodup := by
  have kept (prior rest : List (Str × Json)) (distinct : (prior.map Prod.fst).Nodup) :
      ((rest.foldl (fun dict field => assign field.1 field.2 dict) prior).map Prod.fst).Nodup := by
    induction rest generalizing prior with
    | nil => exact distinct
    | cons field rest ih =>
      apply ih
      rw [assign_keys]
      split
      · exact distinct
      · next fresh =>
        apply List.nodup_append.mpr ⟨distinct, by simp, ?_⟩
        rintro key old other new rfl
        rw [List.mem_singleton.mp new] at old
        exact fresh old
  exact kept [] fields (by simp)

/-- The members of a dictionary are among those it was built of. -/
theorem mem_of_mem_toDict {fields : List (Str × Json)} {field : Str × Json}
    (member : field ∈ toDict fields) : field ∈ fields := by
  have among (prior rest : List (Str × Json))
      (member : field ∈ rest.foldl (fun dict field => assign field.1 field.2 dict) prior) :
      field ∈ prior ∨ field ∈ rest := by
    induction rest generalizing prior with
    | nil => exact .inl member
    | cons head rest ih =>
      rcases ih _ member with assigned | later
      · rcases mem_assign assigned with rfl | old
        · exact .inr (by simp)
        · exact .inl old
      · exact .inr (List.mem_cons_of_mem _ later)
  exact (among [] fields member).resolve_left (by simp)

theorem toDict_of_nodup (fields : List (Str × Json)) (distinct : (fields.map Prod.fst).Nodup) :
    toDict fields = fields := by
  have extends_ (prior rest : List (Str × Json)) (distinct : ((prior ++ rest).map Prod.fst).Nodup) :
      rest.foldl (fun dict field => assign field.1 field.2 dict) prior = prior ++ rest := by
    induction rest generalizing prior with
    | nil => simp
    | cons field rest ih =>
      have fresh : field.1 ∉ prior.map Prod.fst := by
        rw [List.map_append, List.nodup_append] at distinct
        intro member
        exact distinct.2.2 _ member field.1 (by simp) rfl
      rw [List.foldl_cons, assign_fresh _ _ _ fresh, ih]
      · simp
      · simpa using distinct
  exact extends_ [] fields (by simpa using distinct)

theorem toDicts_of_uniqueKeys (v : Json) (unique : v.uniqueKeys = true) : toDicts v = v := by
  induction v using Json.inductionOn with
  | arr items ih =>
    rw [uniqueKeys, uniqueKeysItems_iff] at unique
    rw [toDicts, toDictsItems_eq, List.map_congr_left fun v member => ih v member (unique v member),
      List.map_id'']
    exact fun _ => rfl
  | obj fields ih =>
    simp only [uniqueKeys, Bool.and_eq_true, decide_eq_true_eq, uniqueKeysFields_iff] at unique
    have same : (fields.map fun field => (field.1, toDicts field.2)) = fields := by
      conv_rhs => rw [← List.map_id fields]
      exact List.map_congr_left fun field member =>
        Prod.ext rfl (ih field member (unique.2 field member))
    rw [toDicts, toDictsFields_eq, same, toDict_of_nodup fields unique.1]
  | _ => rfl

theorem uniqueKeys_toDicts (v : Json) : v.toDicts.uniqueKeys = true := by
  induction v using Json.inductionOn with
  | arr items ih =>
    rw [toDicts, toDictsItems_eq, uniqueKeys, uniqueKeysItems_iff, List.forall_mem_map]
    exact ih
  | obj fields ih =>
    rw [toDicts, toDictsFields_eq, uniqueKeys, Bool.and_eq_true, decide_eq_true_eq,
      uniqueKeysFields_iff]
    refine ⟨toDict_nodup _, fun field member => ?_⟩
    obtain ⟨original, present, rfl⟩ := List.mem_map.mp (mem_of_mem_toDict member)
    exact ih original present
  | _ => rfl

theorem encodable_toDicts (v : Json) (accepted : v.encodable = true) :
    v.toDicts.encodable = true := by
  induction v using Json.inductionOn with
  | arr items ih =>
    rw [encodable, encodableItems_iff] at accepted
    rw [toDicts, toDictsItems_eq, encodable, encodableItems_iff, List.forall_mem_map]
    exact fun v member => ih v member (accepted v member)
  | obj fields ih =>
    rw [encodable, encodableFields_iff] at accepted
    rw [toDicts, toDictsFields_eq, encodable, encodableFields_iff]
    intro field member
    obtain ⟨original, present, rfl⟩ := List.mem_map.mp (mem_of_mem_toDict member)
    exact ih original present (accepted original present)
  | _ => exact accepted

theorem encodable_reread (ensureAscii : Bool) (v : Json) :
    (v.reread ensureAscii).encodable = v.encodable := by
  induction v using Json.inductionOn with
  | arr items ih =>
    rw [reread, rereadItems_eq, encodable, encodable, Bool.eq_iff_iff, encodableItems_iff,
      encodableItems_iff, List.forall_mem_map]
    exact forall₂_congr fun v member => by rw [ih v member]
  | obj fields ih =>
    rw [reread, rereadFields_eq, encodable, encodable, Bool.eq_iff_iff, encodableFields_iff,
      encodableFields_iff, List.forall_mem_map]
    exact forall₂_congr fun field member => by rw [ih field member]
  | _ => rfl

/-! ## Round trip through `dumps` and `loads` -/

theorem dumps_eq_some_iff (floats : FloatText) (style : Style) (v : Json) (s : Str) :
    dumps floats style v = some s ↔ v.encodable = true ∧ text floats style v.sortKeys = s := by
  unfold dumps
  split <;> simp_all

/-- Reading written text gives dictionaries of the strings that were written, as their escapes
spell them. -/
theorem loads_dumps_reread (floats : FloatText) (style : Style) (lawful : floats.Lawful)
    (styled : style.Lawful) (v : Json) (s gap : Str) (blank : ∀ d ∈ gap, isJsonSpace d = true)
    (dumped : dumps floats style v = some s) :
    loads floats (s ++ gap) = .ok (v.sortKeys.reread style.ensureAscii).toDicts := by
  rcases (dumps_eq_some_iff floats style v s).mp dumped with ⟨accepted, rfl⟩
  have sortedAccepted : v.sortKeys.encodable = true := by rw [encodable_sortKeys, accepted]
  rcases text_head floats style lawful v.sortKeys sortedAccepted with ⟨c, t, opens, -, -, -, noMark⟩
  have read := scan_text_reread floats style lawful styled v.sortKeys sortedAccepted gap blank
  rw [loads, read, if_neg]
  · rfl
  · rw [opens]
    simpa using noMark

/-- Reading written text gives the value with its keys in order. -/
theorem loads_dumps_gap (floats : FloatText) (style : Style) (lawful : floats.Lawful)
    (styled : style.Lawful) (v : Json) (s gap : Str) (unique : v.uniqueKeys = true)
    (written : Readable style.ensureAscii v) (blank : ∀ d ∈ gap, isJsonSpace d = true)
    (dumped : dumps floats style v = some s) : loads floats (s ++ gap) = .ok v.sortKeys := by
  rw [loads_dumps_reread floats style lawful styled v s gap blank dumped,
    reread_of_readable _ _ ((readable_sortKeys _ v).mpr written),
    toDicts_of_uniqueKeys _ (by rw [uniqueKeys_sortKeys, unique])]

theorem loads_dumps (floats : FloatText) (style : Style) (lawful : floats.Lawful)
    (styled : style.Lawful) (v : Json) (s : Str) (unique : v.uniqueKeys = true)
    (written : Readable style.ensureAscii v) (dumped : dumps floats style v = some s) :
    loads floats s = .ok v.sortKeys := by
  simpa using loads_dumps_gap floats style lawful styled v s [] unique written (by simp) dumped

/-- Two values with one text differ in key order at most. -/
theorem dumps_inj (floats : FloatText) (style : Style) (lawful : floats.Lawful)
    (styled : style.Lawful) (v w : Json) (s : Str) (vWritten : Readable style.ensureAscii v)
    (wWritten : Readable style.ensureAscii w) (vDumped : dumps floats style v = some s)
    (wDumped : dumps floats style w = some s) : v.sortKeys = w.sortKeys := by
  rcases (dumps_eq_some_iff floats style v s).mp vDumped with ⟨vAccepted, vText⟩
  rcases (dumps_eq_some_iff floats style w s).mp wDumped with ⟨wAccepted, wText⟩
  exact text_inj floats style lawful styled _ _ (by rw [encodable_sortKeys, vAccepted])
    (by rw [encodable_sortKeys, wAccepted]) ((readable_sortKeys _ v).mpr vWritten)
    ((readable_sortKeys _ w).mpr wWritten) (vText.trans wText.symm)

end DecAustrum.Python.Json
