import TypeNotation.Parser.Outcome
import TypeNotation.Proofs.Lexical.Pieces

/-!
# Recognition

When a reader of pieces does what a relation between tokens and values says. Three things are asked
of it at once, because each of them needs the others in a sequence of readers:

* what it accepts is in the relation;
* where it refuses, the tokens in front of the refused piece can be continued to something in the
  relation;
* what is in the relation is accepted, provided that what follows cannot belong to it.

The first two also say that the answer rests on the pieces up to and including the first one that is
left: exchanging everything behind that piece changes nothing. This is what makes a refusal final.
It would be false of a reader that looks further ahead, so it has to be carried through every
combination.

Readers are plain functions here, and a bound on the length of the input takes the place of the
termination proofs: a relation that refers to itself is recognized on inputs of length `n` given
that it is recognized on all shorter ones.
-/

namespace TypeNotation

variable {α β : Type}

/-! ## The first piece -/

/-- What comes first behind a prefix depends on the first of the rest only. -/
private theorem head?_append_eq {before rest rest' : List Piece} (h : rest'.head? = rest.head?) :
    (before ++ rest').head? = (before ++ rest).head? := by
  rw [List.head?_append, List.head?_append, h]

/-- A test that does not look behind the first piece cannot tell two inputs apart that begin with
the same one. -/
theorem eq_of_head?_eq {test : List Piece → Bool}
    (htest : ∀ piece rest rest', test (piece :: rest') = test (piece :: rest))
    {input input' : List Piece} (h : input'.head? = input.head?) : test input' = test input := by
  cases input with
  | nil => rw [List.head?_eq_none_iff.mp h]
  | cons piece rest =>
    obtain ⟨rest', rfl⟩ := List.head?_eq_some_iff.mp h
    exact htest piece rest rest'

theorem headIs_cons (symbol : Symbol) (piece : Piece) (rest rest' : List Piece) :
    headIs symbol (piece :: rest') = headIs symbol (piece :: rest) := by
  rw [Bool.eq_iff_iff, headIs_iff, headIs_iff]
  simp

theorem headIs_piecesOf {consumed : List Located} {token : Token} {tokens : List Token}
    (h : tokensOf consumed = token :: tokens) (rest : List Piece) (symbol : Symbol) :
    headIs symbol (piecesOf consumed ++ rest) = decide (token = .symbol symbol) := by
  obtain ⟨⟨_, span⟩, others, rfl, rfl, -⟩ := tokensOf_eq_cons_iff.mp h
  rw [Bool.eq_iff_iff, headIs_iff, decide_eq_true_iff]
  simp

/-! ## Readers -/

/-- A reader of pieces. -/
abbrev Production (α : Type) := List Piece → Except Refusal (α × List Piece)

namespace Production

/-- Reads nothing. -/
def accept (a : α) : Production α := fun input ↦ .ok (a, input)

def map (f : α → β) (read : Production α) : Production β :=
  fun input ↦ (read input).map fun (a, rest) ↦ (f a, rest)

def andThen (read : Production α) (next : α → Production β) : Production β :=
  fun input ↦ (read input).bind fun (a, rest) ↦ next a rest

/-- One of two readers, as a test of the input says. -/
def choose (test : List Piece → Bool) (yes no : Production α) : Production α :=
  fun input ↦ if test input then yes input else no input

def symbol (s : Symbol) : Production Unit := fun input ↦ (expect s input).result

def identifier : Production String
  | .ok ⟨.identifier name, _⟩ :: rest => .ok (name, rest)
  | input => .error ⟨.identifier, input⟩

theorem symbol_of_headIs {s : Symbol} {input : List Piece} (h : headIs s input = true) :
    symbol s input = .ok ((), input.tail) := by
  rw [symbol, expect, dif_pos h]
  rfl

theorem symbol_of_not_headIs {s : Symbol} {input : List Piece} (h : headIs s input = false) :
    symbol s input = .error ⟨.symbol s, input⟩ := by
  rw [symbol, expect, dif_neg (by simp [h])]
  rfl

theorem identifier_of_ne {input : List Piece}
    (h : ∀ name span rest, input ≠ .ok ⟨.identifier name, span⟩ :: rest) :
    identifier input = .error ⟨.identifier, input⟩ := by
  unfold identifier
  split
  · next name span rest => exact absurd rfl (h name span rest)
  · rfl

theorem andThen_of_ok {read : Production α} {next : α → Production β} {input rest : List Piece}
    {a : α} (h : read input = .ok (a, rest)) : read.andThen next input = next a rest := by
  rw [andThen, h]
  rfl

theorem andThen_of_error {read : Production α} {next : α → Production β} {input : List Piece}
    {refusal : Refusal} (h : read input = .error refusal) :
    read.andThen next input = .error refusal := by
  rw [andThen, h]
  rfl

theorem map_congr {read read' : Production α} (f : α → β) {input input' : List Piece}
    (h : read input = read' input') : read.map f input = read'.map f input' := by
  rw [map, map, h]

theorem map_of_ok {read : Production α} (f : α → β) {input rest : List Piece} {a : α}
    (h : read input = .ok (a, rest)) : read.map f input = .ok (f a, rest) := by
  rw [map, h]
  rfl

theorem map_of_error {read : Production α} (f : α → β) {input : List Piece} {refusal : Refusal}
    (h : read input = .error refusal) : read.map f input = .error refusal := by
  rw [map, h]
  rfl

theorem map_map {γ : Type} (read : Production α) (f : α → β) (g : β → γ) :
    (read.map f).map g = read.map (g ∘ f) := by
  funext input
  cases h : read input with
  | error refusal => rw [map_of_error _ (map_of_error _ h), map_of_error _ h]
  | ok answer => rw [map_of_ok _ (map_of_ok _ h), map_of_ok _ h, Function.comp_apply]

theorem choose_apply (test : List Piece → Bool) (yes no : Production α) (input : List Piece) :
    choose test yes no input = (bif test input then yes else no) input := by
  rw [choose]
  cases test input <;> rfl

theorem choose_of_true {test : List Piece → Bool} {yes no : Production α} {input : List Piece}
    (h : test input = true) : choose test yes no input = yes input :=
  if_pos h

theorem choose_of_false {test : List Piece → Bool} {yes no : Production α} {input : List Piece}
    (h : test input = false) : choose test yes no input = no input :=
  if_neg (by simp [h])

end Production

/-! ## Recognition -/

/-- On inputs shorter than `bound` the reader accepts what the relation holds of, given that
`Follow` holds of what is left, and it refuses at the first piece that cannot go on. -/
structure Recognizes (bound : Nat) (Follow : List Piece → Prop) (read : Production α)
    (Item : List Token → α → Prop) : Prop where
  accepted : ∀ {input a rest}, input.length < bound → read input = .ok (a, rest) →
    ∃ consumed, input = piecesOf consumed ++ rest ∧ Item (tokensOf consumed) a ∧
      ∀ rest', rest'.head? = rest.head? → read (piecesOf consumed ++ rest') = .ok (a, rest')
  refused : ∀ {input refusal}, input.length < bound → read input = .error refusal →
    ∃ consumed, input = piecesOf consumed ++ refusal.remaining ∧
      (∃ more a, Item (tokensOf consumed ++ more) a) ∧
      ∀ rest', rest'.head? = refusal.remaining.head? →
        read (piecesOf consumed ++ rest') = .error ⟨refusal.expected, rest'⟩
  accepts : ∀ {consumed a rest}, (piecesOf consumed ++ rest).length < bound →
    Item (tokensOf consumed) a → Follow rest → read (piecesOf consumed ++ rest) = .ok (a, rest)

/-- The relation of two readers one after the other. -/
def Sequence (First : List Token → α → Prop) (Second : α → List Token → β → Prop)
    (tokens : List Token) (b : β) : Prop :=
  ∃ a before behind, tokens = before ++ behind ∧ First before a ∧ Second a behind b

namespace Recognizes

variable {bound : Nat} {Follow : List Piece → Prop} {read : Production α}
  {Item : List Token → α → Prop}

theorem zero : Recognizes 0 Follow read Item where
  accepted hlen := absurd hlen (Nat.not_lt_zero _)
  refused hlen := absurd hlen (Nat.not_lt_zero _)
  accepts hlen := absurd hlen (Nat.not_lt_zero _)

/-- A smaller bound and a stronger condition on what follows are weaker demands. -/
theorem mono {bound' : Nat} {Follow' : List Piece → Prop} (h : Recognizes bound Follow read Item)
    (hbound : bound' ≤ bound) (hfollow : ∀ rest, Follow' rest → Follow rest) :
    Recognizes bound' Follow' read Item where
  accepted hlen := h.accepted (Nat.lt_of_lt_of_le hlen hbound)
  refused hlen := h.refused (Nat.lt_of_lt_of_le hlen hbound)
  accepts hlen hitem hrest := h.accepts (Nat.lt_of_lt_of_le hlen hbound) hitem (hfollow _ hrest)

/-- What needs nothing of what follows may be followed by anything. -/
theorem followed (h : Recognizes bound (fun _ ↦ True) read Item) :
    Recognizes bound Follow read Item :=
  h.mono (Nat.le_refl _) fun _ _ ↦ trivial

theorem congr {Item' : List Token → α → Prop} (h : Recognizes bound Follow read Item)
    (hiff : ∀ tokens a, Item tokens a ↔ Item' tokens a) : Recognizes bound Follow read Item' := by
  have heq : Item = Item' := by
    funext tokens a
    exact propext (hiff tokens a)
  exact heq ▸ h

theorem accept (a : α) :
    Recognizes bound (fun _ ↦ True) (Production.accept a) fun tokens b ↦ tokens = [] ∧ b = a where
  accepted {input b rest} _ h := by
    obtain ⟨rfl, rfl⟩ : a = b ∧ input = rest := by simpa [Production.accept] using h
    exact ⟨[], rfl, ⟨rfl, rfl⟩, fun rest' _ ↦ rfl⟩
  refused _ h := by simp [Production.accept] at h
  accepts {consumed b rest} _ h _ := by
    obtain ⟨hnil, rfl⟩ := h
    rw [tokensOf_eq_nil_iff.mp hnil]
    rfl

theorem symbol (s : Symbol) :
    Recognizes bound (fun _ ↦ True) (Production.symbol s) fun tokens _ ↦ tokens = [.symbol s] where
  accepted {input a rest} _ h := by
    cases hhead : headIs s input with
    | false =>
      rw [Production.symbol_of_not_headIs hhead] at h
      cases h
    | true =>
      obtain ⟨span, rest, rfl⟩ := headIs_iff.mp hhead
      rw [Production.symbol_of_headIs hhead] at h
      cases h
      refine ⟨[⟨.symbol s, span⟩], rfl, rfl, fun rest' _ ↦ ?_⟩
      exact Production.symbol_of_headIs (headIs_iff.mpr ⟨span, rest', rfl⟩)
  refused {input refusal} _ h := by
    cases hhead : headIs s input with
    | true =>
      rw [Production.symbol_of_headIs hhead] at h
      cases h
    | false =>
      rw [Production.symbol_of_not_headIs hhead] at h
      cases h
      refine ⟨[], rfl, ⟨[.symbol s], (), rfl⟩, fun rest' hrest ↦ ?_⟩
      exact Production.symbol_of_not_headIs ((eq_of_head?_eq (headIs_cons s) hrest).trans hhead)
  accepts {consumed a rest} _ h _ := by
    obtain ⟨⟨token, span⟩, others, rfl, rfl, hothers⟩ := tokensOf_eq_cons_iff.mp h
    rw [tokensOf_eq_nil_iff.mp hothers]
    exact Production.symbol_of_headIs (headIs_iff.mpr ⟨span, rest, rfl⟩)

theorem identifier :
    Recognizes bound (fun _ ↦ True) Production.identifier
      fun tokens name ↦ tokens = [.identifier name] where
  accepted {input name rest} hlen h := by
    unfold Production.identifier at h
    split at h
    · next found span behind =>
      obtain ⟨rfl, rfl⟩ : found = name ∧ behind = rest := by simpa using h
      exact ⟨[⟨.identifier found, span⟩], rfl, rfl, fun _ _ ↦ rfl⟩
    · cases h
  refused {input refusal} hlen h := by
    unfold Production.identifier at h
    split at h
    · cases h
    · next hother =>
      cases h
      refine ⟨[], rfl, ⟨[.identifier ""], "", rfl⟩, fun rest' hrest ↦ ?_⟩
      refine Production.identifier_of_ne ?_
      rintro name span pieces rfl
      obtain ⟨pieces', rfl⟩ : ∃ pieces', input = .ok ⟨.identifier name, span⟩ :: pieces' :=
        List.head?_eq_some_iff.mp hrest.symm
      exact hother name span pieces' rfl
  accepts {consumed name rest} _ h _ := by
    obtain ⟨⟨token, span⟩, others, rfl, rfl, hothers⟩ := tokensOf_eq_cons_iff.mp h
    rw [tokensOf_eq_nil_iff.mp hothers]
    rfl

theorem map (h : Recognizes bound Follow read Item) (f : α → β) :
    Recognizes bound Follow (read.map f) fun tokens b ↦ ∃ a, Item tokens a ∧ b = f a where
  accepted {input b rest} hlen hread := by
    cases hr : read input with
    | error refusal =>
      rw [Production.map_of_error f hr] at hread
      cases hread
    | ok answer =>
      obtain ⟨a, rest'⟩ := answer
      rw [Production.map_of_ok f hr] at hread
      cases hread
      obtain ⟨consumed, hinput, hitem, hlocal⟩ := h.accepted hlen hr
      exact ⟨consumed, hinput, ⟨a, hitem, rfl⟩,
        fun rest' hrest ↦ Production.map_of_ok f (hlocal rest' hrest)⟩
  refused {input refusal} hlen hread := by
    cases hr : read input with
    | ok answer =>
      rw [Production.map_of_ok f hr] at hread
      cases hread
    | error refusal' =>
      rw [Production.map_of_error f hr] at hread
      cases hread
      obtain ⟨consumed, hinput, ⟨more, a, hitem⟩, hlocal⟩ := h.refused hlen hr
      exact ⟨consumed, hinput, ⟨more, f a, a, hitem, rfl⟩,
        fun rest' hrest ↦ Production.map_of_error f (hlocal rest' hrest)⟩
  accepts {consumed b rest} hlen hitem hrest := by
    obtain ⟨a, hitem, rfl⟩ := hitem
    exact Production.map_of_ok f (h.accepts hlen hitem hrest)

/-- One reader after the other. The second one needs to be known on shorter inputs only, by as much
as the first one reads at least; and what the second one reads must not belong to the first. -/
theorem andThen {bound' : Nat} {Follow' : List Piece → Prop} {next : α → Production β}
    {Next : α → List Token → β → Prop} (h : Recognizes bound Follow read Item)
    (hnext : ∀ a, Recognizes bound' Follow' (next a) (Next a))
    (hbound : ∀ tokens a, Item tokens a → bound ≤ bound' + tokens.length)
    (hinhabited : ∀ a, ∃ tokens b, Next a tokens b)
    (hfollow : ∀ {a b consumed rest}, Next a (tokensOf consumed) b → Follow' rest →
      Follow (piecesOf consumed ++ rest)) :
    Recognizes bound Follow' (read.andThen next) (Sequence Item Next) where
  accepted {input b rest} hlen hread := by
    cases hr : read input with
    | error refusal =>
      rw [Production.andThen_of_error hr] at hread
      cases hread
    | ok answer =>
      obtain ⟨a, middle⟩ := answer
      rw [Production.andThen_of_ok hr] at hread
      obtain ⟨consumed, rfl, hitem, hlocal⟩ := h.accepted hlen hr
      have hshort := hbound _ _ hitem
      simp only [List.length_append, length_piecesOf, length_tokensOf] at hlen hshort
      obtain ⟨consumed', rfl, hitem', hlocal'⟩ := (hnext a).accepted (by omega) hread
      refine ⟨consumed ++ consumed', by simp, ⟨a, _, _, by simp, hitem, hitem'⟩,
        fun rest' hrest ↦ ?_⟩
      rw [piecesOf_append, List.append_assoc,
        Production.andThen_of_ok (hlocal _ (head?_append_eq hrest))]
      exact hlocal' rest' hrest
  refused {input refusal} hlen hread := by
    cases hr : read input with
    | error refusal' =>
      rw [Production.andThen_of_error hr] at hread
      cases hread
      obtain ⟨consumed, hinput, ⟨more, a, hitem⟩, hlocal⟩ := h.refused hlen hr
      -- what the first reader lacks, and then anything that the second one takes
      obtain ⟨tokens, b, hnextItem⟩ := hinhabited a
      exact ⟨consumed, hinput, ⟨more ++ tokens, b, a, _, _, by simp, hitem, hnextItem⟩,
        fun rest' hrest ↦ Production.andThen_of_error (hlocal rest' hrest)⟩
    | ok answer =>
      obtain ⟨a, middle⟩ := answer
      rw [Production.andThen_of_ok hr] at hread
      obtain ⟨consumed, rfl, hitem, hlocal⟩ := h.accepted hlen hr
      have hshort := hbound _ _ hitem
      simp only [List.length_append, length_piecesOf, length_tokensOf] at hlen hshort
      obtain ⟨consumed', rfl, ⟨more, b, hitem'⟩, hlocal'⟩ := (hnext a).refused (by omega) hread
      refine ⟨consumed ++ consumed', by simp, ⟨more, b, a, _, _, by simp, hitem, hitem'⟩,
        fun rest' hrest ↦ ?_⟩
      rw [piecesOf_append, List.append_assoc,
        Production.andThen_of_ok (hlocal _ (head?_append_eq hrest))]
      exact hlocal' rest' hrest
  accepts {consumed b rest} hlen hitem hrest := by
    obtain ⟨a, before, behind, heq, hitem, hitem'⟩ := hitem
    obtain ⟨first, second, rfl, rfl, rfl⟩ := tokensOf_eq_append_iff.mp heq
    have hshort := hbound _ _ hitem
    rw [piecesOf_append, List.append_assoc] at hlen ⊢
    rw [Production.andThen_of_ok (h.accepts hlen hitem (hfollow hitem' hrest))]
    simp only [List.length_append, length_piecesOf, length_tokensOf] at hlen hshort
    exact (hnext a).accepts (by simp only [List.length_append, length_piecesOf]; omega) hitem' hrest

/-- The same for a first reader that needs nothing of what follows. -/
theorem leading {next : α → Production β} {Next : α → List Token → β → Prop}
    {Follow' : List Piece → Prop} (h : Recognizes bound (fun _ ↦ True) read Item)
    (hnext : ∀ a, Recognizes bound Follow' (next a) (Next a))
    (hinhabited : ∀ a, ∃ tokens b, Next a tokens b) :
    Recognizes bound Follow' (read.andThen next) (Sequence Item Next) :=
  h.andThen hnext (fun _ _ _ ↦ Nat.le_add_right _ _) hinhabited fun _ _ ↦ trivial

/-- A choice that rests on the first piece. -/
theorem choose {yes no : Production α} {Yes No : List Token → α → Prop}
    {test : List Piece → Bool} (hyes : Recognizes bound Follow yes Yes)
    (hno : Recognizes bound Follow no No)
    (htest : ∀ piece rest rest', test (piece :: rest') = test (piece :: rest))
    (hYes : ∀ tokens a, Yes tokens a → Item tokens a)
    (hNo : ∀ tokens a, No tokens a → Item tokens a)
    (hItem : ∀ {consumed a rest}, Item (tokensOf consumed) a → Follow rest →
      if test (piecesOf consumed ++ rest) then Yes (tokensOf consumed) a
      else No (tokensOf consumed) a) :
    Recognizes bound Follow (.choose test yes no) Item := by
  -- both branches at once, so that the test is looked at in one place only
  have hbranch (b : Bool) : Recognizes bound Follow (bif b then yes else no)
      fun tokens a ↦ (bif b then Yes tokens a else No tokens a) := by
    cases b with
    | true => exact hyes
    | false => exact hno
  have hbranchItem (b : Bool) (tokens : List Token) (a : α)
      (h : bif b then Yes tokens a else No tokens a) : Item tokens a := by
    cases b with
    | true => exact hYes _ _ h
    | false => exact hNo _ _ h
  constructor
  · intro input a rest hlen hread
    rw [Production.choose_apply] at hread
    obtain ⟨consumed, rfl, hitem, hlocal⟩ := (hbranch _).accepted hlen hread
    refine ⟨consumed, rfl, hbranchItem _ _ _ hitem, fun rest' hrest ↦ ?_⟩
    rw [Production.choose_apply, eq_of_head?_eq htest (head?_append_eq hrest)]
    exact hlocal rest' hrest
  · intro input refusal hlen hread
    rw [Production.choose_apply] at hread
    obtain ⟨consumed, rfl, ⟨more, a, hitem⟩, hlocal⟩ := (hbranch _).refused hlen hread
    refine ⟨consumed, rfl, ⟨more, a, hbranchItem _ _ _ hitem⟩, fun rest' hrest ↦ ?_⟩
    rw [Production.choose_apply, eq_of_head?_eq htest (head?_append_eq hrest)]
    exact hlocal rest' hrest
  · intro consumed a rest hlen hitem hrest
    have hbranch := hItem hitem hrest
    cases hcase : test (piecesOf consumed ++ rest) with
    | true =>
      rw [hcase, if_pos rfl] at hbranch
      rw [Production.choose_of_true hcase]
      exact hyes.accepts hlen hbranch hrest
    | false =>
      rw [hcase, if_neg Bool.false_ne_true] at hbranch
      rw [Production.choose_of_false hcase]
      exact hno.accepts hlen hbranch hrest

/-- A choice by the first token: behind each token that can come first the rest is recognized, and
any other piece is refused at once. -/
theorem ofFirst (expected : Expected)
    (htoken : ∀ token,
      (∃ next : Production α, (∀ span rest, read (.ok ⟨token, span⟩ :: rest) = next rest) ∧
        Recognizes bound Follow next fun tokens a ↦ Item (token :: tokens) a) ∨
      (∀ span rest, read (.ok ⟨token, span⟩ :: rest) =
        .error ⟨expected, .ok ⟨token, span⟩ :: rest⟩) ∧
        ∀ tokens a, ¬Item (token :: tokens) a)
    (hother : ∀ rest, (∀ located rest', rest ≠ .ok located :: rest') →
      read rest = .error ⟨expected, rest⟩)
    (hnil : ∀ a, ¬Item [] a) (hinhabited : ∃ tokens a, Item tokens a) :
    Recognizes (bound + 1) Follow read Item := by
  constructor
  · intro input a rest hlen hread
    rcases exists_located_or input with ⟨⟨token, span⟩, others, rfl⟩ | hne
    · rcases htoken token with ⟨next, heq, hnext⟩ | ⟨heq, -⟩
      · rw [heq] at hread
        obtain ⟨consumed, rfl, hitem, hlocal⟩ :=
          hnext.accepted (Nat.lt_of_succ_lt_succ hlen) hread
        exact ⟨⟨token, span⟩ :: consumed, rfl, hitem,
          fun rest' hrest ↦ (heq span _).trans (hlocal rest' hrest)⟩
      · rw [heq] at hread
        cases hread
    · rw [hother input hne] at hread
      cases hread
  · intro input refusal hlen hread
    obtain ⟨tokens, a, hitem⟩ := hinhabited
    rcases exists_located_or input with ⟨⟨token, span⟩, rest, rfl⟩ | hne
    · rcases htoken token with ⟨next, heq, hnext⟩ | ⟨heq, -⟩
      · rw [heq] at hread
        obtain ⟨consumed, rfl, ⟨more, a, hitem⟩, hlocal⟩ :=
          hnext.refused (Nat.lt_of_succ_lt_succ hlen) hread
        exact ⟨⟨token, span⟩ :: consumed, rfl, ⟨more, a, hitem⟩,
          fun rest' hrest ↦ (heq span _).trans (hlocal rest' hrest)⟩
      · -- nothing was read, so any item at all continues what was read
        rw [heq] at hread
        cases hread
        refine ⟨[], rfl, ⟨tokens, a, hitem⟩, fun rest' hrest ↦ ?_⟩
        obtain ⟨rest'', rfl⟩ : ∃ rest'', rest' = .ok ⟨token, span⟩ :: rest'' :=
          List.head?_eq_some_iff.mp hrest
        exact heq span rest''
    · rw [hother input hne] at hread
      cases hread
      refine ⟨[], rfl, ⟨tokens, a, hitem⟩, fun rest' hrest ↦ hother rest' ?_⟩
      rintro located others rfl
      obtain ⟨others', rfl⟩ := List.head?_eq_some_iff.mp hrest.symm
      exact hne located others' rfl
  · intro consumed a rest hlen hitem hrest
    cases consumed with
    | nil => exact absurd hitem (hnil a)
    | cons first consumed =>
      obtain ⟨token, span⟩ := first
      rcases htoken token with ⟨next, heq, hnext⟩ | ⟨-, hno⟩
      · rw [piecesOf_cons, List.cons_append, heq]
        exact hnext.accepts (Nat.lt_of_succ_lt_succ hlen) hitem hrest
      · exact absurd hitem (hno _ a)

end Recognizes

end TypeNotation
