import Mathlib.Data.List.Basic

/-! Streams of terminated items. Splitting a stream at the terminator gives back the items
exactly when it is their frames and none of them contains the terminator. -/
namespace Framing
variable {α : Type}

def frames (terminator : α) (items : List (List α)) : List α := items.flatMap (fun item => item ++ [terminator])

theorem frames_append (terminator : α) (first second : List (List α)) :
    frames terminator (first ++ second) = frames terminator first ++ frames terminator second :=
  List.flatMap_append

theorem frames_cons (terminator : α) (item : List α) (rest : List (List α)) :
    frames terminator (item :: rest) = item ++ terminator :: frames terminator rest := by
  simp [frames]

theorem frames_length (terminator : α) (items : List (List α)) :
    (frames terminator items).length = items.flatten.length + items.length := by
  induction items with
  | nil => rfl
  | cons item rest ih =>
    rw [frames_cons,List.length_append,List.length_cons,ih,List.flatten_cons,List.length_append,List.length_cons]
    omega

theorem first_unique (terminator : α) (first other rest later : List α) (left : terminator ∉ first)
    (right : terminator ∉ other) (same : first ++ terminator :: rest = other ++ terminator :: later) :
    first = other ∧ rest = later := by
  induction first generalizing other with
  | nil =>
    cases other with
    | nil => exact ⟨rfl,(List.cons.inj same).2⟩
    | cons c others => exact absurd ((List.cons.inj same).1 ▸ List.mem_cons_self) right
  | cons c firsts ih =>
    cases other with
    | nil => exact absurd ((List.cons.inj same).1 ▸ List.mem_cons_self) left
    | cons d others =>
      obtain ⟨rfl,tail⟩ := List.cons.inj same
      obtain ⟨rfl,rfl⟩ := ih others (List.not_mem_of_not_mem_cons left) (List.not_mem_of_not_mem_cons right) tail
      exact ⟨rfl,rfl⟩

theorem last_unique (terminator : α) (first other rest later : List α) (left : terminator ∉ rest)
    (right : terminator ∉ later) (same : first ++ terminator :: rest = other ++ terminator :: later) :
    first = other ∧ rest = later := by
  have turned := congrArg List.reverse same
  rw [List.reverse_append,List.reverse_append,List.reverse_cons,List.reverse_cons,List.append_assoc,
    List.append_assoc] at turned
  obtain ⟨behind,before⟩ := first_unique terminator rest.reverse later.reverse _ _ (List.mem_reverse.not.mpr left)
    (List.mem_reverse.not.mpr right) turned
  exact ⟨List.reverse_injective before,List.reverse_injective behind⟩

/-- A stream that ends in the terminator is the frames of items without it. -/
theorem exists_frames (terminator : α) (stream : List α) (ends : stream.getLast? = some terminator) :
    ∃ items, stream = frames terminator items ∧ ∀ item ∈ items, terminator ∉ item := by
  induction stream with
  | nil => contradiction
  | cons c rest ih =>
    cases rest with
    | nil =>
      obtain rfl := Option.some.inj ends
      exact ⟨[[]],rfl,by simp⟩
    | cons d later =>
      obtain ⟨items,split,free⟩ := ih (by rwa [List.getLast?_cons_cons] at ends)
      rw [split]
      by_cases here : c = terminator
      · subst here
        exact ⟨[] :: items,(frames_cons c [] items).symm,List.forall_mem_cons.mpr ⟨List.not_mem_nil,free⟩⟩
      · cases items with
        | nil => contradiction
        | cons item others =>
          obtain ⟨own,more⟩ := List.forall_mem_cons.mp free
          refine ⟨(c :: item) :: others,?_,List.forall_mem_cons.mpr ⟨?_,more⟩⟩
          · rw [frames_cons,frames_cons,List.cons_append]
          · rw [List.mem_cons,not_or]
            exact ⟨Ne.symm here,own⟩

variable [BEq α] [LawfulBEq α]

theorem splitOn_frames (terminator : α) (items : List (List α)) (free : ∀ item ∈ items, terminator ∉ item) :
    (frames terminator items).splitOn terminator = items ++ [[]] := by
  induction items with
  | nil => rfl
  | cons item rest ih =>
    have later := ih fun other member => free other (List.mem_cons_of_mem _ member)
    rw [frames_cons,List.splitOn_append_cons_self_of_not_mem (free item List.mem_cons_self)]
    exact congrArg (item :: ·) later

theorem splitOn_eq_iff (terminator : α) (bytes : List α) (items : List (List α)) :
    bytes.splitOn terminator = items ++ [[]] ↔
      bytes = frames terminator items ∧ ∀ item ∈ items, terminator ∉ item := by
  constructor
  · intro split
    induction items generalizing bytes with
    | nil =>
      by_cases member : terminator ∈ bytes
      · obtain ⟨first,later,rfl,free⟩ := List.eq_append_cons_of_mem member
        rw [List.splitOn_append_cons_self_of_not_mem free] at split
        exact absurd (List.cons.inj split).2 (List.splitOn_ne_nil terminator later)
      · rw [List.splitOn_eq_singleton member] at split
        exact ⟨(List.cons.inj split).1,by simp⟩
    | cons item rest ih =>
      by_cases member : terminator ∈ bytes
      · obtain ⟨first,later,rfl,free⟩ := List.eq_append_cons_of_mem member
        rw [List.splitOn_append_cons_self_of_not_mem free] at split
        obtain ⟨rfl,tail⟩ := List.cons.inj split
        obtain ⟨rfl,others⟩ := ih later tail
        refine ⟨?_,List.forall_mem_cons.mpr ⟨free,others⟩⟩
        rw [frames_cons]
      · rw [List.splitOn_eq_singleton member] at split
        have size := congrArg List.length split
        simp at size
  · rintro ⟨rfl,free⟩
    exact splitOn_frames terminator items free

end Framing
