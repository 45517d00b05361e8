import LiveMarkup.Code.TypeName

/-!
# What parsers leave

Whatever a parser reads it takes from the front: what it leaves is the end of what it was
given, and nothing is put back, changed or made up. Every rule of the language is built
from a few parsers that are like this by steps that keep it so. The fact is therefore
carried by a class, whose instances follow the definitions: the steps first, then the
rules in the order of the grammar, each for a grammar whose phrases are like this.

## Main definitions

* `Leaves` — a parser leaves the end of what it was given.
* `Grammar.Leaves` — so do the parsers for all phrases.

## Main results

* `leaves_grammarWithin` — **every phrase of the language leaves the end of what it was
  given**.
-/

-- Where alternatives meet again what follows is looked at once for each of them.
set_option synthInstance.maxSize 200000

namespace LiveMarkup.Code

open LiveMarkup.Code.Parser

/-- A parser leaves the end of what it was given. -/
class Leaves {α : Type} (p : Parser α) : Prop where
  suffix : ∀ ts a rest, p ts = some (a, rest) → rest <:+ ts

/-- The parsers for all phrases leave the end of what they were given. -/
class Grammar.Leaves (g : Grammar) : Prop where
  phrase : ∀ p, Code.Leaves (g p)

/-! ## Steps -/

section Steps

variable {α β : Type} {p q : Parser α}

instance (a : α) : Leaves (pure a : Parser α) where
  suffix := by
    intro ts b rest h
    cases h
    exact List.suffix_refl ts

instance : Leaves (get : Parser (List Token)) where
  suffix := by
    intro ts b rest h
    cases h
    exact List.suffix_refl ts

/-- Whoever looks at what comes next goes on with the same tokens. -/
theorem get_bind (f : List Token → Parser β) (ts : List Token) : (get >>= f) ts = f ts ts :=
  rfl

instance : Leaves (failure : Parser α) where
  suffix := nofun

instance leaves_bind {f : α → Parser β} [hFirst : Leaves p] [hThen : ∀ a, Leaves (f a)] :
    Leaves (p >>= f) where
  suffix := by
    intro ts b rest h
    obtain ⟨⟨a, mid⟩, hRead, hRest⟩ := Option.bind_eq_some_iff.mp h
    exact ((hThen a).suffix mid b rest hRest).trans (hFirst.suffix ts a mid hRead)

instance {f : α → β} [hp : Leaves p] : Leaves (f <$> p) where
  suffix := by
    intro ts b rest h
    obtain ⟨⟨a, mid⟩, hRead, hRest⟩ := Option.bind_eq_some_iff.mp h
    cases hRest
    exact hp.suffix ts a rest hRead

instance [Leaves p] : Leaves (discard p) :=
  inferInstanceAs (Leaves ((fun _ => ()) <$> p))

instance {c : Prop} [Decidable c] [hp : Leaves p] [hq : Leaves q] : Leaves (if c then p else q) := by
  split
  · exact hp
  · exact hq

/-! ## Tokens -/

instance (read? : Token → Option α) : Leaves (token read?) where
  suffix := by
    intro ts a rest h
    cases ts with
    | nil => cases h
    | cons first ts =>
        obtain ⟨b, -, hPair⟩ := Option.map_eq_some_iff.mp h
        cases hPair
        exact List.suffix_cons first rest

instance (s : String) : Leaves (symbol s) where
  suffix := by
    intro ts a rest h
    rw [symbol] at h
    split at h
    · cases h
      exact List.drop_suffix s.length ts
    · cases h

instance (s : String) : Leaves (takes s) where
  suffix := by
    intro ts a rest h
    rw [takes] at h
    split at h
    · cases h
      exact List.drop_suffix s.length ts
    · cases h
      exact List.suffix_refl ts

instance (text : String) : Leaves (takesWord text) where
  suffix := by
    intro ts a rest h
    rw [takesWord] at h
    split at h
    · cases h
      exact List.drop_suffix 1 ts
    · cases h
      exact List.suffix_refl ts

instance : Leaves literal where
  suffix := by
    intro ts a rest h
    rw [literal] at h
    split at h
    · cases h
      exact List.drop_suffix _ ts
    · cases h

instance : Leaves optionalText where
  suffix := by
    intro ts a rest h
    cases h
    split
    · exact List.drop_suffix 1 ts
    · exact List.suffix_refl ts

/-- What stands between brackets may be read in any way: it is left as a whole. -/
instance (b : Bracket) (content : Parser α) : Leaves (inside b content) where
  suffix := by
    intro ts a rest h
    unfold inside at h
    repeat' split at h
    all_goals cases h
    exact List.suffix_cons _ _

instance (text : String) : Leaves (word text) := by unfold word; infer_instance
instance : Leaves anyWord := by unfold anyWord; infer_instance
instance : Leaves identifier := by unfold identifier; infer_instance
instance (texts : List String) : Leaves (identifierOr texts) := by unfold identifierOr; infer_instance
instance : Leaves lifetime := by unfold lifetime; infer_instance
instance : Leaves optionalLifetime := by unfold optionalLifetime; infer_instance
instance : Leaves anyGroup := by unfold anyGroup; infer_instance

/-! ## Repetition -/

instance (step : α → Parser (Option α)) [hStep : ∀ a, Leaves (step a)] (limit : Nat) (a : α) :
    Leaves (iterateWithin step limit a) := by
  induction limit generalizing a with
  | zero => exact inferInstanceAs (Leaves failure)
  | succ limit ih =>
      rw [iterateWithin]
      refine @leaves_bind _ _ _ _ (hStep a) fun next => ?_
      cases next with
      | none => exact inferInstanceAs (Leaves (pure a))
      | some next => exact ih next

instance (step : α → Parser (Option α)) [∀ a, Leaves (step a)] (a : α) : Leaves (iterate step a) where
  suffix ts := Leaves.suffix (p := iterateWithin step (ts.length + 1) a) ts

instance (more : Look) (piece : Parser Unit) [Leaves piece] : Leaves (repeatWhile more piece) := by
  unfold repeatWhile; infer_instance
instance (separator : String) (stop : Look) (piece : Parser Unit) [Leaves piece] :
    Leaves (punctuated separator stop piece) := by
  unfold punctuated; infer_instance
instance (piece : Parser Unit) [Leaves piece] : Leaves (list piece) := by
  unfold list; infer_instance

end Steps

/-! ## Phrases -/

section Rules

variable (g : Grammar) [hg : g.Leaves]

instance (plus : Bool) : Leaves (g.typeForm plus) := hg.phrase (.type plus)
instance (plus : Bool) : Leaves (g.type plus) := by unfold Grammar.type; infer_instance
instance : Leaves g.argument := hg.phrase .argument
instance : Leaves g.parameter := hg.phrase .parameter
instance : Leaves g.expression :=
  have := hg.phrase (.expression true)
  inferInstanceAs (Leaves (discard (g (.expression true))))
instance : Leaves g.condition :=
  have := hg.phrase (.expression false)
  inferInstanceAs (Leaves (discard (g (.expression false))))
instance (curly : Bool) : Leaves (g.operand curly) := hg.phrase (.operand curly)
instance (form : ExpressionForm) (curly : Bool) (least : Precedence) :
    Leaves (g.operation form curly least) := hg.phrase (.operation form curly least)
instance : Leaves g.leading := hg.phrase .leading
instance : Leaves g.pattern := hg.phrase .pattern
instance : Leaves g.statements := hg.phrase .statements
instance : Leaves g.item := hg.phrase .item
instance : Leaves g.fields := hg.phrase .fields
instance (rooted : Bool) : Leaves (g.useTree rooted) := hg.phrase (.useTree rooted)

/-! ## Paths and attributes -/

instance : Leaves wordPath := by unfold wordPath; infer_instance
instance : Leaves (angles g) := by unfold angles; infer_instance
instance (value : Bool) : Leaves (segment g value) := by unfold segment; infer_instance
instance (value : Bool) (form : PathForm) : Leaves (nextSegment? g value form) := by
  unfold nextSegment?; infer_instance
instance (value : Bool) : Leaves (path g value) := by unfold path; infer_instance
instance (value : Bool) : Leaves (qualifiedPath g value) := by unfold qualifiedPath; infer_instance
instance : Leaves expansion := by unfold expansion; infer_instance
instance : Leaves (attributeContent g) := by unfold attributeContent; infer_instance
instance : Leaves (attributes g) := by unfold attributes; infer_instance
instance : Leaves (innerAttributes g) := by unfold innerAttributes; infer_instance
instance : Leaves (block g) := by unfold block; infer_instance
instance : Leaves (body g) := by unfold body; infer_instance

/-! ## Bounds -/

instance (plus : Bool) : Leaves (result g plus) := by unfold result; infer_instance
instance : Leaves (constant g) := by unfold constant; infer_instance
instance : Leaves capture := by unfold capture; infer_instance
instance : Leaves (binder g) := by unfold binder; infer_instance
instance (conditional : Bool) : Leaves (trait g conditional) := by unfold trait; infer_instance
instance (capturing conditional : Bool) : Leaves (bound g capturing conditional) := by
  unfold bound; infer_instance
instance (stop : Look) (conditional : Bool) : Leaves (boundsUntil g stop conditional) := by
  unfold boundsUntil; infer_instance
instance : Leaves (parameter g) := by unfold parameter; infer_instance
instance (plus capturing conditional : Bool) : Leaves (bounds g plus capturing conditional) := by
  unfold bounds; infer_instance
instance (plus capturing conditional : Bool) : Leaves (traits g plus capturing conditional) := by
  unfold traits; infer_instance
instance : Leaves (generics g) := by unfold generics; infer_instance
instance : Leaves (typeCondition g) := by unfold typeCondition; infer_instance
instance : Leaves (conditions g) := by unfold conditions; infer_instance

/-! ## Types -/

instance : Leaves convention := by unfold convention; infer_instance
instance (first : Bool) : Leaves (functionParameter g first) := by
  unfold functionParameter; infer_instance
instance : Leaves (functionParameters g) := by unfold functionParameters; infer_instance
instance : Leaves (functionType g) := by unfold functionType; infer_instance
instance : Leaves (enclosed g) := by unfold enclosed; infer_instance
instance : Leaves (furtherBounds g) := by unfold furtherBounds; infer_instance
instance (plus : Bool) : Leaves (enclosedType g plus) := by
  unfold enclosedType
  refine @leaves_bind _ _ _ _ inferInstance fun content => ?_
  cases content <;> infer_instance
instance (plus bound : Bool) : Leaves (namedType g plus bound) := by
  unfold namedType
  refine @leaves_bind _ _ _ _ inferInstance fun form => ?_
  cases form <;> infer_instance
instance (plus : Bool) : Leaves (typeForm g plus) := by unfold typeForm; infer_instance
instance : Leaves (argument g) := by unfold argument; infer_instance

/-! ## Patterns -/

instance : Leaves (alternatives g) := by unfold alternatives; infer_instance
instance : Leaves (patternList g) := by unfold patternList; infer_instance
instance (threeDots : Bool) : Leaves (rangeDots threeDots) := by unfold rangeDots; infer_instance
instance : Leaves (rangeBound g) := by unfold rangeBound; infer_instance
instance (threeDots : Bool) : Leaves (rangeFrom g threeDots) := by unfold rangeFrom; infer_instance
instance : Leaves (optionalRange g) := by unfold optionalRange; infer_instance
instance : Leaves member := by unfold member; infer_instance
instance : Leaves (patternField g) := by unfold patternField; infer_instance
instance : Leaves (patternFields g) := by unfold patternFields; infer_instance
instance : Leaves (pathPattern g) := by unfold pathPattern; infer_instance
instance : Leaves (binding g) := by unfold binding; infer_instance
instance : Leaves (rowPart g) := by unfold rowPart; infer_instance
instance : Leaves (pattern g) := by unfold pattern; infer_instance

/-! ## Operators -/

instance (curly : Bool) (precedence : Precedence) : Leaves (rightSide g curly precedence) := by
  unfold rightSide; infer_instance
instance (curly : Bool) : Leaves (rangeOnward g curly) := by unfold rangeOnward; infer_instance
instance (curly : Bool) (least : Precedence) (form : ExpressionForm) :
    Leaves (nextOperation? g curly least form) := by
  unfold nextOperation?
  refine @leaves_bind _ _ _ _ inferInstance fun ts => ?_
  cases operator? ts <;> infer_instance
instance (form : ExpressionForm) (curly : Bool) (least : Precedence) :
    Leaves (operation g form curly least) := by
  unfold operation; infer_instance
instance (curly : Bool) : Leaves (expressionForm g curly) := by
  unfold expressionForm; infer_instance

/-! ## Expressions -/

instance : Leaves (callArguments g) := by unfold callArguments; infer_instance
instance : Leaves (namedMember g) := by unfold namedMember; infer_instance
instance : Leaves (memberAccess g) where
  suffix := by
    intro ts a rest h
    unfold memberAccess at h
    split at h
    · rename_i digits behind
      refine List.IsSuffix.trans ?_ (List.suffix_cons _ behind)
      repeat' split at h
      · exact Leaves.suffix behind a rest h
      · cases h
        exact List.suffix_refl rest
      · cases h
    · exact Leaves.suffix ts a rest h
instance (form : ExpressionForm) : Leaves (nextAccess? g form) := by
  unfold nextAccess?; infer_instance
instance (form : ExpressionForm) : Leaves (accesses g form) := by unfold accesses; infer_instance
instance : Leaves (valueField g) := by unfold valueField; infer_instance
instance : Leaves (valueFields g) := by unfold valueFields; infer_instance
instance (curly : Bool) : Leaves (pathExpression g curly) := by
  unfold pathExpression; infer_instance
instance : Leaves (elements g) := by unfold elements; infer_instance
instance : Leaves (optionalExpression g) := by unfold optionalExpression; infer_instance
instance (curly : Bool) : Leaves (breakOut g curly) := by unfold breakOut; infer_instance
instance : Leaves (branches g) := by unfold branches; infer_instance
instance : Leaves (arm g) := by unfold arm; infer_instance
instance : Leaves (choice g) := by unfold choice; infer_instance
instance : Leaves (conditionalLoop g) := by unfold conditionalLoop; infer_instance
instance : Leaves (loopOver g) := by unfold loopOver; infer_instance
instance : Leaves (endlessLoop g) := by unfold endlessLoop; infer_instance
instance : Leaves (labelled g) := by unfold labelled; infer_instance
instance (curly : Bool) : Leaves (bindingCondition g curly) := by
  unfold bindingCondition; infer_instance
instance : Leaves (closureParameter g) := by unfold closureParameter; infer_instance
instance (curly : Bool) : Leaves (closure g curly) := by unfold closure; infer_instance
instance : Leaves (laterBlock g) := by unfold laterBlock; infer_instance
instance : Leaves builtIn := by unfold builtIn; infer_instance
instance : Leaves (blockExpression g) := by unfold blockExpression; infer_instance
instance (curly : Bool) : Leaves (atom g curly) := by unfold atom; infer_instance
instance (curly : Bool) : Leaves (operand g curly) := by unfold operand; infer_instance
instance : Leaves (leading g) := by unfold leading; infer_instance

/-! ## Items -/

instance : Leaves semicolon := by unfold semicolon; infer_instance
instance (one : Parser Unit) : Leaves (itemsInside g one) := by unfold itemsInside; infer_instance
instance : Leaves visibility := by unfold visibility; infer_instance
instance : Leaves (receiver g) := by unfold receiver; infer_instance
/-- The value that a method belongs to is tried first; if it is there, what it leaves is
what is left. -/
instance : Leaves (itemParameter g) where
  suffix := by
    intro ts a rest h
    rw [itemParameter, get_bind] at h
    cases hReceiver : receiver g ts with
    | some read =>
        rw [hReceiver] at h
        cases h
        exact Leaves.suffix ts read.1 read.2 hReceiver
    | none =>
        rw [hReceiver] at h
        exact Leaves.suffix ts a rest h
instance : Leaves (itemParameters g) := by
  have hBehind (further : Option Bool) (first : Bool) : Leaves (match further with
      | none => do
        discard (takes ",")
        return none
      | some owner => do
        if owner && !first then failure
        if ← takes "," then return some false else return none : Parser (Option Bool)) := by
    cases further <;> infer_instance
  unfold itemParameters
  infer_instance
instance (safe : Bool) : Leaves (signature g safe) := by unfold signature; infer_instance
instance : Leaves (optionalBody g) := by unfold optionalBody; infer_instance
instance : Leaves optionalName := by unfold optionalName; infer_instance
instance : Leaves (constantItem g) := by unfold constantItem; infer_instance
instance : Leaves (staticItem g) := by unfold staticItem; infer_instance
instance (place : ConditionPlace) : Leaves (typeItem g place) := by unfold typeItem; infer_instance
instance : Leaves (namedField g) := by unfold namedField; infer_instance
instance : Leaves (fields g) := by unfold fields; infer_instance
instance : Leaves (rowFields g) := by unfold rowFields; infer_instance
instance : Leaves (structItem g) := by unfold structItem; infer_instance
instance : Leaves (variant g) := by unfold variant; infer_instance
instance : Leaves (enumItem g) := by unfold enumItem; infer_instance
instance : Leaves (unionItem g) := by unfold unionItem; infer_instance
instance (named : Bool) : Leaves (expansionItem named) := by unfold expansionItem; infer_instance
instance : Leaves expansionRule := by unfold expansionRule; infer_instance
instance : Leaves (traitMember g) := by unfold traitMember; infer_instance
instance (plain : Bool) : Leaves (traitItem g plain) := by unfold traitItem; infer_instance
instance : Leaves (implementationMember g) := by unfold implementationMember; infer_instance
instance : Leaves (implementation g) := by unfold implementation; infer_instance
instance : Leaves (moduleItem g) := by unfold moduleItem; infer_instance
instance : Leaves packageItem := by unfold packageItem; infer_instance
instance : Leaves (foreignMember g) := by unfold foreignMember; infer_instance
instance : Leaves (foreignItems g) := by unfold foreignItems; infer_instance
instance (rooted : Bool) : Leaves (useTree g rooted) := by unfold useTree; infer_instance
instance : Leaves (useItem g) := by unfold useItem; infer_instance
instance : Leaves (declaration g) := by unfold declaration; infer_instance
instance : Leaves (item g) := by unfold item; infer_instance

/-! ## Statements -/

instance : Leaves (localBinding g) := by unfold localBinding; infer_instance
instance : Leaves (statement g) := by
  unfold statement
  refine @leaves_bind _ _ _ _ inferInstance fun _ => ?_
  refine @leaves_bind _ _ _ _ inferInstance fun ts => ?_
  cases expansionPlace ts <;> infer_instance
instance : Leaves (statements g) := by unfold statements; infer_instance

/-! ## The language -/

instance (p : Phrase) : Leaves (rule g p) := by
  cases p <;> (unfold rule; infer_instance)

end Rules

/-- **Every phrase of the language leaves the end of what it was given**, however deep
phrases may be nested. -/
instance leaves_grammarWithin (depth : Nat) :
    Grammar.Leaves fun p ts => grammarWithin depth p ts where
  phrase := by
    induction depth with
    | zero => exact fun p => inferInstanceAs (Leaves failure)
    | succ depth ih =>
        have : Grammar.Leaves fun p ts => grammarWithin depth p ts := ⟨ih⟩
        exact fun p => inferInstanceAs (Leaves (rule (fun p ts => grammarWithin depth p ts) p))

instance leaves_grammarFor (length : Nat) : (grammarFor length).Leaves :=
  leaves_grammarWithin (16 * (length + 1))

end LiveMarkup.Code
