import Cpl.Source.Span

namespace Cpl

/-- Lengths add up. -/
theorem byteLength_append (first second : List Char) :
    byteLength (first ++ second) = byteLength first + byteLength second := by
  induction first with
  | nil => rw [List.nil_append, byteLength, Nat.zero_add]
  | cons character first ih => rw [List.cons_append, byteLength, byteLength, ih, Nat.add_assoc]

/-- What is dropped is a beginning of that length. -/
theorem dropBytes?_sound {count : Nat} {source rest : List Char}
    (dropped : dropBytes? count source = some rest) :
    ∃ before, source = before ++ rest ∧ byteLength before = count := by
  fun_induction dropBytes? count source with
  | case1 =>
      cases dropped
      exact ⟨[], rfl, rfl⟩
  | case2 => cases dropped
  | case3 character source =>
      cases dropped
      exact ⟨[], rfl, rfl⟩
  | case4 count character source positive enough ih =>
      obtain ⟨before, rfl, counted⟩ := ih dropped
      refine ⟨character :: before, rfl, ?_⟩
      rw [byteLength, counted]
      omega
  | case5 => cases dropped

/-- A beginning can be dropped. -/
theorem dropBytes?_append (before rest : List Char) :
    dropBytes? (byteLength before) (before ++ rest) = some rest := by
  induction before with
  | nil => cases rest <;> rfl
  | cons character before ih =>
      have positive := character.utf8Size_pos
      rw [List.cons_append, dropBytes?, byteLength, if_neg (by omega), if_pos (by omega),
        Nat.add_sub_cancel_left, ih]

/-- A source is divided in one way at a byte position. -/
theorem byteLength_unique {front rest other later : List Char}
    (same : front ++ rest = other ++ later) (length : byteLength front = byteLength other) :
    front = other ∧ rest = later := by
  have dropped := dropBytes?_append front rest
  rw [same, length, dropBytes?_append, Option.some.injEq] at dropped
  subst dropped
  exact ⟨List.append_cancel_right same, rfl⟩

/-- What is taken is a beginning of that length. -/
theorem takeBytes?_sound {count : Nat} {source text : List Char}
    (taken : takeBytes? count source = some text) :
    ∃ after, source = text ++ after ∧ byteLength text = count := by
  fun_induction takeBytes? count source generalizing text with
  | case1 =>
      cases taken
      exact ⟨[], rfl, rfl⟩
  | case2 => cases taken
  | case3 character source =>
      cases taken
      exact ⟨character :: source, rfl, rfl⟩
  | case4 count character source positive enough ih =>
      obtain ⟨later, found, rfl⟩ := Option.map_eq_some_iff.mp taken
      obtain ⟨after, rfl, counted⟩ := ih found
      refine ⟨after, rfl, ?_⟩
      rw [byteLength, counted]
      omega
  | case5 => cases taken

/-- A beginning can be taken. -/
theorem takeBytes?_append (text after : List Char) :
    takeBytes? (byteLength text) (text ++ after) = some text := by
  induction text with
  | nil => cases after <;> rfl
  | cons character text ih =>
      have positive := character.utf8Size_pos
      rw [List.cons_append, takeBytes?, byteLength, if_neg (by omega), if_pos (by omega),
        Nat.add_sub_cancel_left, ih]
      rfl

/-- A range has a slice if it starts and stops at the ends of characters of the source. -/
theorem Span.slice?_some {span : Span} {source text : List Char} :
    span.slice? source = some text ↔
      ∃ before after, source = before ++ (text ++ after) ∧
        span = ⟨byteLength before, byteLength before + byteLength text⟩ := by
  constructor
  · intro cut
    obtain ⟨length, counted, cut⟩ := Option.bind_eq_some_iff.mp cut
    obtain ⟨rest, dropped, taken⟩ := Option.bind_eq_some_iff.mp cut
    obtain ⟨before, rfl, first⟩ := dropBytes?_sound dropped
    obtain ⟨after, rfl, second⟩ := takeBytes?_sound taken
    rw [Span.length?] at counted
    split at counted
    next ordered =>
      cases counted
      refine ⟨before, after, rfl, ?_⟩
      rw [first, second, Nat.add_sub_cancel' ordered]
    next => cases counted
  · rintro ⟨before, after, rfl, rfl⟩
    rw [Span.slice?, Span.length?, if_pos (Nat.le_add_right _ _), Nat.add_sub_cancel_left]
    exact (congrArg (Option.bind · _) (dropBytes?_append before _)).trans (takeBytes?_append text after)

end Cpl
