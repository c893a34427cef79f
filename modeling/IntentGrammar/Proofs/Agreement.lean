import IntentGrammar.Proofs.Counterparts

/-!
# Grammars that agree from a key on

What matters of a definition are its key, the values of its arguments and its sentences with their
weights.  It does not matter where it stands, and on which lines and in which columns its parts are
(`Definition.Same`).  Two grammars agree from a key on if they have the same definition for every
key that is reached from it (`Grammar.Agrees`); what else they define may be anything.

The definitions that are reached then correspond to each other in the graphs of the two grammars
(`alike_of_agrees`).  To have the definitions in another order, or to have some more of them, is to
agree from every key on that both define (`Grammar.Agrees.of_subset`, `Grammar.Agrees.symm`).
-/

namespace IntentGrammar

open Relation

/-! ### The same definition -/

/-- The same text, or the same target. -/
inductive Element.Same : Element → Element → Prop
  | literal (text : String) (optional : Bool) : Same (.literal text optional) (.literal text optional)
  | reference {r r' : Reference} (target : r.target = r'.target) (optional : r.optional = r'.optional) :
      Same (.reference r) (.reference r')

/-- The same elements and the same weight. -/
structure Alternative.Same (a b : Alternative) : Prop where
  elements : List.Forall₂ Element.Same a.elements b.elements
  weight : a.weight = b.weight

/-- The same key, the same values of arguments and the same sentences. -/
structure Definition.Same (d e : Definition) : Prop where
  key : d.key = e.key
  arguments (name : String) : d.argument? name = e.argument? name
  alternatives : List.Forall₂ Alternative.Same d.alternatives e.alternatives

theorem Element.Same.refl : (x : Element) → Element.Same x x
  | .literal text optional => .literal text optional
  | .reference _ => .reference rfl rfl

theorem Alternative.Same.refl (a : Alternative) : a.Same a where
  elements := List.forall₂_same.mpr fun x _ => .refl x
  weight := rfl

theorem Definition.Same.refl (d : Definition) : d.Same d where
  key := rfl
  arguments _ := rfl
  alternatives := List.forall₂_same.mpr fun a _ => .refl a

theorem Element.Same.symm {x y : Element} (h : Element.Same x y) : Element.Same y x := by
  cases h with
  | literal text optional => exact .literal text optional
  | reference htarget hoptional => exact .reference htarget.symm hoptional.symm

theorem Alternative.Same.symm {a b : Alternative} (h : a.Same b) : b.Same a where
  elements := h.elements.flip.imp fun _ _ => Element.Same.symm
  weight := h.weight.symm

theorem Definition.Same.symm {d e : Definition} (h : d.Same e) : e.Same d where
  key := h.key.symm
  arguments name := (h.arguments name).symm
  alternatives := h.alternatives.flip.imp fun _ _ => Alternative.Same.symm

/-! ### Agreement -/

namespace Grammar

/-- Some definition has the key. -/
def Defines (g : Grammar) (k : Key) : Prop := ∃ d ∈ g.definitions, d.key = k

/-- Both grammars define the key and all that is reached from it, and in the same way. -/
def Agrees (g g' : Grammar) (k : Key) : Prop :=
  ∀ l, ReflTransGen g.Refers k l →
    ∃ d ∈ g.definitions, ∃ d' ∈ g'.definitions, d.key = l ∧ d.Same d'

variable {g g' : Grammar} {k l m : Key}

/-- In a grammar that can be linked all that is reached is defined. -/
theorem Defines.of_reaches (hg : g.Resolved) (hk : g.Defines k) (h : ReflTransGen g.Refers k l) :
    g.Defines l := by
  rcases h.cases_tail with rfl | ⟨m, -, d, hd, -, a, ha, r, hr, rfl⟩
  · exact hk
  · exact (hg d hd a ha r hr).2

/-- Where one grammar has all definitions of another, in whatever order, they agree on all that the
other defines. -/
theorem Agrees.of_subset (hg : g.Resolved) (hsub : g.definitions ⊆ g'.definitions)
    (hk : g.Defines k) : g.Agrees g' k := by
  intro l hl
  obtain ⟨d, hd, hkey⟩ := hk.of_reaches hg hl
  exact ⟨d, hd, d, hsub hd, hkey, .refl d⟩

theorem Distinct.eq_of_key (hg : g.Distinct) {d e : Definition} (hd : d ∈ g.definitions)
    (he : e ∈ g.definitions) (hkey : d.key = e.key) : d = e :=
  List.inj_on_of_nodup_map hg hd he hkey

/-- The references are the same. -/
theorem Agrees.refers (h : g.Agrees g' k) (hg' : g'.Distinct) (hl : ReflTransGen g.Refers k l)
    (hlm : g'.Refers l m) : g.Refers l m := by
  obtain ⟨e, he, hekey, b, hb, r', hr', rfl⟩ := hlm
  obtain ⟨d, hd, d', hd', rfl, hsame⟩ := h l hl
  obtain rfl : e = d' := hg'.eq_of_key he hd' (hekey.trans hsame.key)
  obtain ⟨a, ha, hab⟩ := exists_left_of_forall₂ hsame.alternatives hb
  obtain ⟨x, hx, hxr⟩ := exists_left_of_forall₂ hab.elements hr'
  cases hxr with
  | @reference r _ htarget _ => exact ⟨d, hd, rfl, a, ha, r, hx, htarget⟩

/-- It does not matter in which of the grammars one walks. -/
theorem Agrees.symm (h : g.Agrees g' k) (hg' : g'.Distinct) : g'.Agrees g k := by
  intro l hl
  have hreached : ReflTransGen g.Refers k l := by
    induction hl with
    | refl => exact .refl
    | tail _ hstep ih => exact ih.tail (h.refers hg' ih hstep)
  obtain ⟨d, hd, d', hd', hkey, hsame⟩ := h l hreached
  exact ⟨d', hd', d, hd, hsame.key.symm.trans hkey, hsame.symm⟩

end Grammar

/-! ### Networks of grammars that agree -/

section Lists

variable {α β γ δ : Type} {P : α → γ → Prop} {Q : β → δ → Prop} {S : α → β → Prop}
  {T : γ → δ → Prop}

/-- Members that correspond to those of two lists which correspond to each other. -/
theorem forall₂_transfer {as : List α} {bs : List β} {cs : List γ} {ds : List δ}
    (h : List.Forall₂ S as bs) (hP : List.Forall₂ P as cs) (hQ : List.Forall₂ Q bs ds)
    (hT : ∀ a ∈ as, ∀ b c d, S a b → P a c → Q b d → T c d) : List.Forall₂ T cs ds := by
  induction h generalizing cs ds with
  | nil =>
    cases hP
    cases hQ
    exact .nil
  | @cons a b as bs hab _ ih =>
    rcases hP with _ | ⟨hac, hP⟩
    rcases hQ with _ | ⟨hbd, hQ⟩
    refine .cons (hT a List.mem_cons_self b _ _ hab hac hbd) (ih hP hQ ?_)
    exact fun a' ha' => hT a' (List.mem_cons_of_mem a ha')

end Lists

section Networks

variable {n m : Nat} {net : Network n} {net' : Network m} {R : Fin n → Fin m → Prop}
  {G G' : Grammar}

/-- Definitions with the target of a reference correspond. -/
def Meets (net : Network n) (net' : Network m) (R : Fin n → Fin m → Prop) (r : Reference) : Prop :=
  ∀ v w, (net.get v).key = r.target → (net'.get w).key = r.target → R v w

theorem Element.Same.alike {x y : Element} {s : Step n} {t : Step m} (h : Element.Same x y)
    (hs : Step.Mirrors net x s) (ht : Step.Mirrors net' y t)
    (hR : ∀ r, x = .reference r → Meets net net' R r) : Step.Alike R s t := by
  cases h with
  | literal text optional =>
    cases hs
    cases ht
    exact .words _ optional
  | @reference r r' htarget hoptional =>
    cases hs with
    | reference _ v hv =>
      cases ht with
      | reference _ w hw =>
        rw [hoptional]
        exact .reference (hR r rfl v w hv (hw.trans htarget.symm)) r'.optional

theorem Alternative.Same.alike {a b : Alternative} {c : Choice n} {d : Choice m} (h : a.Same b)
    (hc : Choice.Mirrors net a c) (hd : Choice.Mirrors net' b d)
    (hR : ∀ r, Element.reference r ∈ a.elements → Meets net net' R r) : Choice.Alike R c d where
  steps := forall₂_transfer h.elements hc.steps hd.steps fun _ hx _ _ _ hxy hs ht =>
    hxy.alike hs ht fun r hr => hR r (hr ▸ hx)
  weight := hc.weight.trans (h.weight.trans hd.weight.symm)

theorem Definition.Same.alike {d e : Definition} {v : Node n} {w : Node m} (h : d.Same e)
    (hv : Node.Mirrors net d v) (hw : Node.Mirrors net' e w)
    (hR : ∀ a ∈ d.alternatives, ∀ r, Element.reference r ∈ a.elements → Meets net net' R r) :
    Node.Alike R v w where
  key := hv.key.trans (h.key.trans hw.key.symm)
  arguments name := by
    have hname : d.arguments.lookup name = e.arguments.lookup name := h.arguments name
    rw [Node.argument?, Node.argument?, hv.arguments, hw.arguments, hname]
  choices := forall₂_transfer h.alternatives hv.choices hw.choices fun a ha _ _ _ hab hc hd =>
    hab.alike hc hd (hR a ha)

/-- A definition with the key of a definition in the network is that definition. -/
theorem Network.Mirrors.node (h : net.Mirrors G) (hG : G.Distinct) {d : Definition}
    (hd : d ∈ G.definitions) {v : Fin n} (hkey : d.key = (net.get v).key) :
    Node.Mirrors net d (net.get v) := by
  obtain ⟨x, hx, hdx⟩ := exists_right_of_forall₂ h hd
  obtain ⟨u, rfl⟩ := exists_get_of_mem_toList hx
  obtain rfl : u = v := h.key_injective hG (hdx.key.trans hkey)
  exact hdx

/-- The definitions in two networks for the same key, one that is reached from `k`. -/
def Counterpart (G : Grammar) (k : Key) (net : Network n) (net' : Network m) (v : Fin n)
    (w : Fin m) : Prop :=
  ReflTransGen G.Refers k (net.get v).key ∧ (net.get v).key = (net'.get w).key

/-- **Networks of grammars that agree** say the same about what is reached. -/
theorem Grammar.Agrees.alike {k : Key} (h : G.Agrees G' k) (hG : G.Distinct) (hG' : G'.Distinct)
    (hnet : net.Mirrors G) (hnet' : net'.Mirrors G') :
    Network.Alike (Counterpart G k net net') net net' where
  unique := ⟨fun _ _ _ hR hR' => hnet.key_injective hG (hR.2.trans hR'.2.symm),
    fun _ _ _ hR hR' => hnet'.key_injective hG' (hR.2.symm.trans hR'.2)⟩
  nodes v w hR := by
    obtain ⟨hreached, hkey⟩ := hR
    obtain ⟨d, hd, e, he, hdkey, hsame⟩ := h _ hreached
    have hekey : e.key = (net'.get w).key := hsame.key.symm.trans (hdkey.trans hkey)
    refine hsame.alike (hnet.node hG hd hdkey) (hnet'.node hG' he hekey) ?_
    -- what is referred to is reached as well
    intro a ha r hr v' w' hv' hw'
    have hrefers : G.Refers (net.get v).key (net.get v').key := ⟨d, hd, hdkey, a, ha, r, hr, hv'.symm⟩
    exact ⟨hreached.tail hrefers, hv'.trans hw'.symm⟩

end Networks

/-! ### Graphs of grammars that agree -/

/-- The definitions that are reached correspond in the graphs. -/
theorem alike_of_agrees {G G' : Grammar} {g g' : Graph} {ceiling : Nat} {k : Key}
    (hG : G.Distinct) (hG' : G'.Distinct) (hbuild : Graph.build G ceiling = .ok g)
    (hbuild' : Graph.build G' ceiling = .ok g') (h : G.Agrees G' k) :
    Graph.Alike (Counterpart G k g.network g'.network) :=
  alike_of_build hbuild hbuild'
    (h.alike hG hG' (mirrors_of_build hbuild) (mirrors_of_build hbuild'))

/-- The order of its definitions does not decide whether a grammar passes. -/
theorem Grammar.Passes.of_perm {G G' : Grammar} (h : G.definitions.Perm G'.definitions)
    {check : Check} (hpass : G.Passes check) : G'.Passes check := by
  have hmem (d : Definition) : d ∈ G'.definitions ↔ d ∈ G.definitions := h.mem_iff.symm
  have hrefers : G'.Refers = G.Refers := by
    funext k l
    simp only [Grammar.Refers, hmem]
  have hrequires : G'.Requires = G.Requires := by
    funext k l
    simp only [Grammar.Requires, hmem]
  cases check with
  | references => simpa only [Grammar.Passes, Grammar.Resolved, hmem] using hpass
  | weights => simpa only [Grammar.Passes, hmem] using hpass
  | circles => simpa only [Grammar.Passes, hrequires] using hpass
  | nesting => simpa only [Grammar.Passes, hrefers] using hpass

/-- What a grammar defines is found in its graph. -/
theorem exists_find? {G : Grammar} {g : Graph} {ceiling : Nat}
    (hbuild : Graph.build G ceiling = .ok g) {k : Key} (hk : G.Defines k) :
    ∃ v, g.find? k = some v ∧ (g.node v).key = k := by
  obtain ⟨d, hd, rfl⟩ := hk
  obtain ⟨x, hx, hdx⟩ := exists_right_of_forall₂ (mirrors_of_build hbuild) hd
  obtain ⟨u, rfl⟩ := exists_get_of_mem_toList hx
  have hsome : (g.find? d.key).isSome := by
    rw [Graph.find?, List.find?_isSome]
    refine ⟨u, List.mem_reverse.mpr (List.mem_finRange u), ?_⟩
    exact decide_eq_true hdx.key
  obtain ⟨v, hv⟩ := Option.isSome_iff_exists.mp hsome
  refine ⟨v, hv, ?_⟩
  rw [Graph.find?] at hv
  have hkey := List.find?_some hv
  simpa using hkey

end IntentGrammar
