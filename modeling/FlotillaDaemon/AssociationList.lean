import Mathlib.Data.List.AList

/-! Association lists after a replacement: what is found under each key, and what is left
once a key is erased. -/
namespace AssociationList
open List
variable {K : Type} {V : K → Type} [DecidableEq K]

theorem kreplace_here (k : K) (old new : V k) (rest : List (Sigma V)) :
    kreplace k new (⟨k,old⟩ :: rest) = ⟨k,new⟩ :: rest := by
  rw [kreplace,lookmap_cons_some]
  exact if_pos rfl

theorem kreplace_later (k : K) (new : V k) (first : Sigma V) (rest : List (Sigma V)) (other : first.1 ≠ k) :
    kreplace k new (first :: rest) = first :: kreplace k new rest := by
  rw [kreplace,lookmap_cons_none]
  exact if_neg (Ne.symm other)

theorem lookup_replace (k : K) (new : V k) (table : AList V) (known : k ∈ table) :
    (table.replace k new).lookup k = some new := by
  have found (entries : List (Sigma V)) (inside : k ∈ entries.keys) : (kreplace k new entries).dlookup k = some new := by
    induction entries with
    | nil => simp at inside
    | cons first rest ih =>
      obtain ⟨key,old⟩ := first
      by_cases own : key = k
      · subst own
        rw [kreplace_here,dlookup_cons_eq]
      · rw [kreplace_later k new _ rest own,dlookup_cons_ne _ _ (Ne.symm own)]
        rw [keys_cons,List.mem_cons] at inside
        exact ih (inside.resolve_left (Ne.symm own))
  exact found table.entries known

theorem lookup_replace_other (k other : K) (new : V k) (table : AList V) (apart : other ≠ k) :
    (table.replace k new).lookup other = table.lookup other := by
  have kept (entries : List (Sigma V)) : (kreplace k new entries).dlookup other = entries.dlookup other := by
    induction entries with
    | nil => rfl
    | cons first rest ih =>
      obtain ⟨key,old⟩ := first
      by_cases own : key = k
      · subst own
        rw [kreplace_here,dlookup_cons_ne _ _ apart,dlookup_cons_ne _ _ apart]
      · rw [kreplace_later k new _ rest own]
        by_cases here : key = other
        · subst here
          rw [dlookup_cons_eq,dlookup_cons_eq]
        · rw [dlookup_cons_ne _ _ (Ne.symm here),dlookup_cons_ne _ _ (Ne.symm here),ih]
  exact kept table.entries

theorem replace_found (k : K) (value : V k) (table : AList V) (found : table.lookup k = some value) :
    table.replace k value = table :=
  AList.ext (kreplace_self table.nodupKeys (AList.mem_lookup_iff.mp found))

theorem erase_replace (k : K) (new : V k) (table : AList V) : (table.replace k new).erase k = table.erase k := by
  have erased (entries : List (Sigma V)) : (kreplace k new entries).kerase k = entries.kerase k := by
    induction entries with
    | nil => rfl
    | cons first rest ih =>
      obtain ⟨key,old⟩ := first
      by_cases own : key = k
      · subst own
        rw [kreplace_here,kerase_cons_eq (s := ⟨key,new⟩) rfl,kerase_cons_eq (s := ⟨key,old⟩) rfl]
      · rw [kreplace_later k new _ rest own,kerase_cons_ne (Ne.symm own),kerase_cons_ne (Ne.symm own),ih]
  exact AList.ext (erased table.entries)

theorem erase_replace_other (k other : K) (new : V k) (table : AList V) (apart : other ≠ k) :
    (table.replace k new).erase other = (table.erase other).replace k new := by
  have erased (entries : List (Sigma V)) :
      (kreplace k new entries).kerase other = kreplace k new (entries.kerase other) := by
    induction entries with
    | nil => rfl
    | cons first rest ih =>
      obtain ⟨key,old⟩ := first
      by_cases own : key = k
      · subst own
        rw [kreplace_here,kerase_cons_ne apart,kerase_cons_ne apart,kreplace_here]
      · rw [kreplace_later k new _ rest own]
        by_cases here : key = other
        · subst here
          rw [kerase_cons_eq (s := ⟨key,old⟩) rfl,kerase_cons_eq (s := ⟨key,old⟩) rfl]
        · rw [kerase_cons_ne (Ne.symm here),kerase_cons_ne (Ne.symm here),kreplace_later k new _ _ own,ih]
  exact AList.ext (erased table.entries)

theorem kerase_eq_filter (k : K) (entries : List (Sigma V)) (distinct : entries.NodupKeys) :
    entries.kerase k = entries.filter (fun entry => entry.1 ≠ k) := by
  induction entries with
  | nil => rfl
  | cons first rest ih =>
    obtain ⟨key,value⟩ := first
    obtain ⟨fresh,distinct⟩ := nodupKeys_cons.mp distinct
    by_cases own : key = k
    · subst own
      have others : rest.filter (fun entry => entry.1 ≠ key) = rest := by
        apply filter_eq_self.mpr
        intro entry member
        have inside := mem_keys_of_mem member
        exact decide_eq_true fun same => fresh (same ▸ inside)
      rw [kerase_cons_eq (s := ⟨key,value⟩) rfl,filter_cons_of_neg (by simp),others]
    · rw [kerase_cons_ne (Ne.symm own),filter_cons_of_pos (by simpa using own),ih distinct]

theorem erase_entries (k : K) (table : AList V) :
    (table.erase k).entries = table.entries.filter (fun entry => entry.1 ≠ k) :=
  kerase_eq_filter k table.entries table.nodupKeys

theorem erase_absent (k : K) (table : AList V) (absent : k ∉ table) : table.erase k = table :=
  AList.ext (kerase_of_notMem_keys absent)

theorem erase_again (k : K) (table : AList V) : (table.erase k).erase k = table.erase k :=
  erase_absent k _ fun member => (AList.mem_erase.mp member).1 rfl

theorem erase_insert (k : K) (value : V k) (table : AList V) : (table.insert k value).erase k = table.erase k := by
  apply AList.ext
  change (kinsert k value table.entries).kerase k = table.entries.kerase k
  rw [kinsert_def,kerase_cons_eq (s := ⟨k,value⟩) rfl]

theorem erase_insert_other (k other : K) (value : V k) (table : AList V) (apart : other ≠ k) :
    (table.insert k value).erase other = (table.erase other).insert k value := by
  apply AList.ext
  change (kinsert k value table.entries).kerase other = kinsert k value (table.entries.kerase other)
  rw [kinsert_def,kinsert_def,kerase_cons_ne apart,kerase_kerase]

end AssociationList
