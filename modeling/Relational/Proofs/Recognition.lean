import Relational.Proofs.Phrases

/-!
# The rules read the phrases of the grammar

Each rule is sound: what it takes from the front of the tokens is a phrase of its kind, and it is read
with the meaning that the grammar gives it. And each rule is complete: where such a phrase stands at
the front, the rule takes all of it, unless a token follows with which a longer phrase could go on.
-/
namespace Relational.Query

namespace Rule

variable {α β : Type} {p : Rule α} {q : α → Rule β} {ts rest : List Token}

/-- What the rule takes from the front of the tokens is a phrase, and is read with its meaning. -/
def Sound (p : Rule α) (phrase : Phrase α) : Prop :=
  ∀ ts x rest, p ts = .ok (x, rest) → ∃ us, ts = us ++ rest ∧ phrase us x

/-- A phrase is taken as a whole and read with its meaning, unless one of the tokens `further`
comes after it. -/
def Complete (p : Rule α) (phrase : Phrase α) (further : List Token) : Prop :=
  ∀ us x, phrase us x → ∀ rest, next rest ∉ further → p (us ++ rest) = .ok (x, rest)

theorem bind_apply_eq_ok {y : β} : (p >>= q) ts = .ok (y, rest) ↔
    ∃ x middle, p ts = .ok (x, middle) ∧ q x middle = .ok (y, rest) := by
  rw [bind_apply]
  cases p ts with
  | error e => simp
  | ok result =>
    constructor
    · exact fun h => ⟨_, _, rfl, h⟩
    · rintro ⟨x, middle, same, h⟩
      cases same
      exact h

theorem bind_of_ok {x : α} {middle : List Token} (h : p ts = .ok (x, middle)) :
    (p >>= q) ts = q x middle := by
  rw [bind_apply, h]

theorem bind_of_error {e : Malformation} (h : p ts = .error e) : (p >>= q) ts = .error e := by
  rw [bind_apply, h]

theorem peek_bind (q : Token → Rule β) (ts : List Token) : (peek >>= q) ts = q (next ts) ts := rfl

theorem accept_eq_ok {t : Token} {found : Bool} (ht : t ≠ .finish) :
    accept t ts = .ok (found, rest) ↔
      found = true ∧ ts = t :: rest ∨ found = false ∧ next ts ≠ t ∧ rest = ts := by
  rw [accept_apply]
  cases ts with
  | nil => simp [ht.symm, eq_comm]
  | cons u us =>
    by_cases h : u = t
    · simp [h, eq_comm]
    · simpa [h] using fun _ => eq_comm

theorem accept_cons (t : Token) (ts : List Token) : accept t (t :: ts) = .ok (true, ts) := by
  rw [accept_apply, next_cons, if_pos rfl, List.tail_cons]

theorem accept_of_ne {t : Token} (h : next ts ≠ t) : accept t ts = .ok (false, ts) := by
  rw [accept_apply, if_neg h]

theorem expect_eq_ok {t : Token} {x : Unit} (ht : t ≠ .finish) :
    expect t ts = .ok (x, rest) ↔ ts = t :: rest := by
  rw [expect_apply]
  cases ts with
  | nil => simp [ht.symm]
  | cons u us => by_cases h : u = t <;> simp [h]

theorem expect_cons (t : Token) (ts : List Token) : expect t (t :: ts) = .ok ((), ts) := by
  rw [expect_apply, next_cons, if_pos rfl, List.tail_cons]

theorem eq_cons_of_next {t : Token} (h : next ts = t) (ht : t ≠ .finish) : ts = t :: ts.tail := by
  cases ts with
  | nil => exact absurd h.symm ht
  | cons u us => rw [← h, next_cons, List.tail_cons]

theorem Complete.mono {phrase other : Phrase α} {further others : List Token}
    (h : Complete p phrase further) (phrases : ∀ us x, other us x → phrase us x)
    (tokens : further ⊆ others) : Complete p other others :=
  fun us x hus rest apart => h us x (phrases us x hus) rest fun inside => apart (tokens inside)

theorem sound_identifier : Sound identifier IsIdentifier := by
  intro ts name rest h
  cases ts with
  | nil => cases h
  | cons t ts =>
    cases t with
    | identifier name =>
      cases h
      exact ⟨_, rfl, .identifier name⟩
    | _ => cases h

theorem complete_identifier : Complete identifier IsIdentifier [] := by
  rintro us name ⟨⟩ rest -
  rfl

section Separated

variable {separator : Token} {item : Rule α} {phrase : Phrase α} {further : List Token}

theorem separatedRest_succ (bound : Nat) : separatedRest separator item (bound + 1) =
    accept separator >>= fun found =>
      if found then
        item >>= fun x => separatedRest separator item bound >>= fun xs => pure (x :: xs)
      else pure [] := rfl

theorem separated_apply (ts : List Token) : separated separator item ts =
    (item >>= fun x => fun rest =>
      (separatedRest separator item rest.length >>= fun xs => pure (x :: xs)) rest) ts := rfl

theorem sound_separatedRest (hs : separator ≠ .finish) (h : Sound item phrase) (bound : Nat)
    {xs : List α} (hxs : separatedRest separator item bound ts = .ok (xs, rest)) :
    xs = [] ∧ ts = rest ∨
      ∃ us, ts = separator :: (us ++ rest) ∧ IsSeparated separator phrase us xs := by
  induction bound generalizing ts xs with
  | zero =>
    cases hxs
    exact .inl ⟨rfl, rfl⟩
  | succ bound ih =>
    rw [separatedRest_succ] at hxs
    obtain ⟨found, middle, hfound, hmore⟩ := bind_apply_eq_ok.1 hxs
    rcases (accept_eq_ok hs).1 hfound with ⟨rfl, rfl⟩ | ⟨rfl, -, rfl⟩
    · obtain ⟨x, after, hx, hmore⟩ := bind_apply_eq_ok.1 hmore
      obtain ⟨others, last, hothers, hmore⟩ := bind_apply_eq_ok.1 hmore
      cases hmore
      obtain ⟨us, rfl, hus⟩ := h _ _ _ hx
      rcases ih hothers with ⟨rfl, rfl⟩ | ⟨vs, rfl, hvs⟩
      · exact .inr ⟨us, rfl, .one hus⟩
      · exact .inr ⟨us ++ separator :: vs, by simp, .more hus hvs⟩
    · cases hmore
      exact .inl ⟨rfl, rfl⟩

theorem sound_separated (hs : separator ≠ .finish) (h : Sound item phrase) :
    Sound (separated separator item) (IsSeparated separator phrase) := by
  intro ts xs rest hxs
  rw [separated_apply] at hxs
  obtain ⟨x, after, hx, hxs⟩ := bind_apply_eq_ok.1 hxs
  obtain ⟨others, last, hothers, hxs⟩ := bind_apply_eq_ok.1 hxs
  cases hxs
  obtain ⟨us, rfl, hus⟩ := h _ _ _ hx
  rcases sound_separatedRest hs h _ hothers with ⟨rfl, rfl⟩ | ⟨vs, rfl, hvs⟩
  · exact ⟨us, rfl, .one hus⟩
  · exact ⟨us ++ separator :: vs, by simp, .more hus hvs⟩

theorem separatedRest_of_ne {bound : Nat} (h : next ts ≠ separator) :
    separatedRest separator item bound ts = .ok ([], ts) := by
  cases bound with
  | zero => rfl
  | succ bound => exact bind_of_ok (accept_of_ne h)

theorem complete_separatedRest (h : Complete item phrase further) (apart : separator ∉ further)
    {us : List Token} {xs : List α} (hxs : IsSeparated separator phrase us xs)
    (other : next rest ≠ separator) (ends : next rest ∉ further) {bound : Nat}
    (enough : us.length < bound) :
    separatedRest separator item bound (separator :: (us ++ rest)) = .ok (xs, rest) := by
  induction hxs generalizing bound with
  | @one us x hus =>
    obtain ⟨bound, rfl⟩ := Nat.exists_eq_succ_of_ne_zero (Nat.ne_zero_of_lt enough)
    refine (bind_of_ok (accept_cons _ _)).trans ((bind_of_ok (h us x hus rest ends)).trans ?_)
    exact bind_of_ok (separatedRest_of_ne other)
  | @more us vs x xs hus hvs ih =>
    obtain ⟨bound, rfl⟩ := Nat.exists_eq_succ_of_ne_zero (Nat.ne_zero_of_lt enough)
    rw [List.append_assoc, List.cons_append]
    refine (bind_of_ok (accept_cons _ _)).trans ((bind_of_ok (h us x hus (_ :: _) apart)).trans ?_)
    refine bind_of_ok (ih ?_)
    simp only [List.length_append, List.length_cons] at enough
    omega

theorem complete_separated (h : Complete item phrase further) (apart : separator ∉ further) :
    Complete (separated separator item) (IsSeparated separator phrase) (separator :: further) := by
  intro us xs hxs rest ends
  obtain ⟨other, ends⟩ := not_or.1 fun h => ends (List.mem_cons.2 h)
  rw [separated_apply]
  cases hxs with
  | @one _ x hus =>
    exact (bind_of_ok (h us x hus rest ends)).trans (bind_of_ok (separatedRest_of_ne other))
  | @more us vs x xs hus hvs =>
    rw [List.append_assoc, List.cons_append]
    refine (bind_of_ok (h us x hus (_ :: _) apart)).trans (bind_of_ok ?_)
    refine complete_separatedRest h apart hvs other ends ?_
    simp only [List.length_cons, List.length_append]
    omega

end Separated

section Chain

variable {operation? : Token → Option Operation} {operator : Token → Operation → Prop}
  {operators further : List Token} {item : Rule Expr} {phrase : Phrase Expr}

/-- The operators of one level as a rule finds them, as the grammar has them and as a list. -/
structure IsLevel (operation? : Token → Option Operation) (operator : Token → Operation → Prop)
    (operators : List Token) : Prop where
  reads : ∀ t operation, operation? t = some operation ↔ operator t operation
  mem : ∀ t operation, operator t operation → t ∈ operators
  finish : .finish ∉ operators

theorem IsLevel.ne_finish (h : IsLevel operation? operator operators) {t : Token}
    {operation : Operation} (ht : operator t operation) : t ≠ .finish :=
  fun same => h.finish (same ▸ h.mem t operation ht)

theorem IsLevel.eq_none (h : IsLevel operation? operator operators) {t : Token}
    (ht : t ∉ operators) : operation? t = none :=
  Option.eq_none_iff_forall_ne_some.2 fun operation same =>
    ht (h.mem t operation ((h.reads t operation).1 same))

theorem isLevel_additive : IsLevel additive? IsAdditive [.symbol .plus, .symbol .minus] where
  reads t operation := by
    constructor
    · intro h
      unfold additive? at h
      split at h <;> cases h
      · exact .plus
      · exact .minus
    · rintro ⟨⟩ <;> rfl
  mem := by rintro _ _ ⟨⟩ <;> decide
  finish := by decide

theorem isLevel_multiplicative :
    IsLevel multiplicative? IsMultiplicative [.symbol .star, .symbol .slash] where
  reads t operation := by
    constructor
    · intro h
      unfold multiplicative? at h
      split at h <;> cases h
      · exact .star
      · exact .slash
    · rintro ⟨⟩ <;> rfl
  mem := by rintro _ _ ⟨⟩ <;> decide
  finish := by decide

theorem chainRest_succ (bound : Nat) (left : Expr) (ts : List Token) :
    chainRest operation? item (bound + 1) left ts =
      match operation? (next ts) with
      | some operation => (item >>= fun right =>
          chainRest operation? item bound (.binary left operation right)) ts.tail
      | none => .ok (left, ts) := by
  show (match operation? (next ts) with | some _ => _ | none => _ : Rule Expr) ts = _
  cases operation? (next ts) <;> rfl

theorem chain_apply (ts : List Token) : chain operation? item ts =
    (item >>= fun first middle => chainRest operation? item middle.length first middle) ts := rfl

/-- What stands before has been read as the left side. -/
theorem sound_chainRest (hop : IsLevel operation? operator operators) (h : Sound item phrase)
    (bound : Nat) {us : List Token} {left e : Expr} (hleft : IsChain operator phrase us left)
    (he : chainRest operation? item bound left ts = .ok (e, rest)) :
    ∃ vs, ts = vs ++ rest ∧ IsChain operator phrase (us ++ vs) e := by
  induction bound generalizing us left ts with
  | zero =>
    cases he
    exact ⟨[], rfl, by rwa [List.append_nil]⟩
  | succ bound ih =>
    rw [chainRest_succ] at he
    split at he
    · next operation hoperation =>
      have operates := (hop.reads _ _).1 hoperation
      obtain ⟨right, middle, hright, hmore⟩ := bind_apply_eq_ok.1 he
      obtain ⟨vs, hts, hvs⟩ := h _ _ _ hright
      obtain ⟨ws, rfl, hws⟩ := ih (.more hleft operates hvs) hmore
      refine ⟨next ts :: (vs ++ ws), ?_, by simpa using hws⟩
      rw [List.cons_append, List.append_assoc, ← hts]
      exact eq_cons_of_next rfl (hop.ne_finish operates)
    · cases he
      exact ⟨[], rfl, by rwa [List.append_nil]⟩

theorem sound_chain (hop : IsLevel operation? operator operators) (h : Sound item phrase) :
    Sound (chain operation? item) (IsChain operator phrase) := by
  intro ts e rest he
  rw [chain_apply] at he
  obtain ⟨first, middle, hfirst, hmore⟩ := bind_apply_eq_ok.1 he
  obtain ⟨us, rfl, hus⟩ := h _ _ _ hfirst
  obtain ⟨vs, rfl, hvs⟩ := sound_chainRest hop h _ (.one hus) hmore
  exact ⟨us ++ vs, (List.append_assoc us vs rest).symm, hvs⟩

theorem chainRest_of_not_mem (hop : IsLevel operation? operator operators)
    (ends : next ts ∉ operators) (bound : Nat) (left : Expr) :
    chainRest operation? item bound left ts = .ok (left, ts) := by
  cases bound with
  | zero => rfl
  | succ bound => rw [chainRest_succ, hop.eq_none ends]

/-- A chain is read as its first item and, in `taken` steps, what follows it. -/
theorem complete_chainRest (hop : IsLevel operation? operator operators)
    (h : Complete item phrase further) (apart : ∀ t ∈ operators, t ∉ further)
    {us : List Token} {e : Expr} (he : IsChain operator phrase us e) :
    ∃ first ws taken, taken ≤ ws.length ∧ ∀ rest, next rest ∉ further →
      item (us ++ rest) = .ok (first, ws ++ rest) ∧ ∀ bound,
        chainRest operation? item (bound + taken) first (ws ++ rest) =
          chainRest operation? item bound e rest := by
  induction he with
  | @one us e hus =>
    exact ⟨e, [], 0, Nat.le_refl _, fun rest ends => ⟨h us e hus rest ends, fun _ => rfl⟩⟩
  | @more us vs t left operation right _ operates hvs ih =>
    obtain ⟨first, ws, taken, few, hread⟩ := ih
    have more : taken + 1 ≤ (ws ++ t :: vs).length := by
      simp only [List.length_append, List.length_cons]
      omega
    refine ⟨first, ws ++ t :: vs, taken + 1, more, fun rest ends => ?_⟩
    obtain ⟨hfirst, hrest⟩ := hread (t :: (vs ++ rest)) (apart t (hop.mem t operation operates))
    rw [List.append_assoc, List.append_assoc, List.cons_append]
    refine ⟨hfirst, fun bound => ?_⟩
    -- The items before take their steps first and leave one for the last operator.
    rw [← Nat.add_assoc, Nat.add_right_comm, hrest, chainRest_succ, next_cons,
      (hop.reads t operation).2 operates]
    exact bind_of_ok (h vs right hvs rest ends)

theorem complete_chain (hop : IsLevel operation? operator operators)
    (h : Complete item phrase further) (apart : ∀ t ∈ operators, t ∉ further) :
    Complete (chain operation? item) (IsChain operator phrase) (operators ++ further) := by
  intro us e he rest ends
  obtain ⟨noOperator, ends⟩ := not_or.1 fun h => ends (List.mem_append.2 h)
  obtain ⟨first, ws, taken, few, hread⟩ := complete_chainRest hop h apart he
  obtain ⟨hfirst, hrest⟩ := hread rest ends
  rw [chain_apply, bind_of_ok hfirst]
  obtain ⟨bound, hbound⟩ : ∃ bound, (ws ++ rest).length = bound + taken := by
    rw [List.length_append]
    exact Nat.exists_eq_add_of_le' (Nat.le_add_right_of_le few)
  rw [hbound, hrest, chainRest_of_not_mem hop noOperator]

end Chain

section Whole

def readAll (p : Rule α) (ts : List Token) : Except Malformation α := do
  let (x, rest) ← p.run ts
  match next rest with
  | .finish => return x
  | found => throw (.trailing found)

theorem runOn_eq (p : Rule α) (s : String) : p.runOn s = scan s.toList >>= p.readAll := rfl

theorem runOn_of_scan {s : String} (h : scan s.toList = .ok ts) : p.runOn s = p.readAll ts := by
  rw [runOn_eq, h]
  rfl

theorem readAll_of_ok {result : α × List Token} (h : p ts = .ok result) :
    p.readAll ts = match next result.2 with
      | .finish => .ok result.1
      | found => .error (.trailing found) := by
  show (p ts >>= _) = _
  rw [h]
  rfl

theorem readAll_eq_ok {x : α} :
    p.readAll ts = .ok x ↔ ∃ rest, p ts = .ok (x, rest) ∧ next rest = .finish := by
  cases h : p ts with
  | error e =>
    have failed : p.readAll ts = .error e := by
      show (p ts >>= _) = _
      rw [h]
      rfl
    simp [failed]
  | ok result =>
    rw [readAll_of_ok h]
    split
    · next ends =>
      constructor
      · intro same
        cases same
        exact ⟨_, rfl, ends⟩
      · rintro ⟨rest, same, -⟩
        cases same
        rfl
    · next goesOn =>
      constructor
      · nofun
      · rintro ⟨rest, same, ends⟩
        cases same
        exact absurd ends goesOn

theorem Complete.readAll {phrase : Phrase α} {further us : List Token} {x : α}
    (h : Complete p phrase further) (ends : .finish ∉ further) (hus : phrase us x) :
    p.readAll (us ++ [.finish]) = .ok x :=
  readAll_eq_ok.2 ⟨[.finish], h us x hus [.finish] ends, rfl⟩

end Whole

end Rule

end Relational.Query
