import Mathlib.Data.List.TakeWhile
import Wiring.Proofs.Answers

/-!
# What a search explores

Nodes are numbered in the order in which they are appended, and a node is on the stack
until all its dependencies are resolved.  So the nodes that a part of a search appends
form a forest in preorder, and an edge to a node of a greater number leads from a node
to one that was appended while it was open.

`Explored` says this for a part of a search, together with what is known of the edges
that lead back: they have been checked against the stack, unless an input of an ancestor
was taken over.

**Results.**
* `Explored.seq`: two parts, one after the other.
* `Explored.close`: a node and everything that was explored while it was open.
-/

namespace Wiring

namespace Graph

/-- Whether an edge leads to a node that was appended later. -/
def Onward (g : Graph) (n d : NodeId) : Prop :=
  n.index < d.index ∧ g.Edge n d

/-- Whether a node is another one, or was appended while that one was open. -/
def Behind (g : Graph) : (n d : NodeId) → Prop :=
  Relation.ReflTransGen g.Onward

/-- Whether an input that a scope or one of its ancestors inherits fits a type. -/
def InputFits (B : Build) (g : Graph) (scope : ScopeId) (t : Ty) : Prop :=
  ∃ above s i, g.Above scope above ∧ g.scope? above = some s
    ∧ i ∈ s.inheritedInputs ∧ B.registry.isAssignable i.type t = true

/-- Whether a node asks for a type that an inherited input fits and is answered by
another node. -/
def Bypass (B : Build) (g : Graph) (n d : NodeId) : Prop :=
  ∃ scope r, g.Asks n scope r d ∧ g.InputFits B scope (B.registry.normalize r.type)

/-- Whether some node of a list puts cycles off. -/
def PutsOff (g : Graph) (ids : List NodeId) : Prop :=
  ∃ p ∈ ids, g.breaksCycles p = true

/-- Whether some node between one node and another behind it puts cycles off. -/
def PutsOffBetween (g : Graph) (m w : NodeId) : Prop :=
  ∃ p, g.breaksCycles p = true ∧ g.Behind m p ∧ g.Behind p w

theorem Behind.le
    {g : Graph}
    {n d : NodeId}
    (h : g.Behind n d) :
    n.index ≤ d.index := by
  induction h with
  | refl => exact Nat.le_refl _
  | tail _ hstep ih => exact Nat.le_trans ih (Nat.le_of_lt hstep.1)

theorem InputFits.mono
    {B : Build}
    {g g' : Graph}
    (hscopes : ∀ {i : Nat} {s : Scope}, g.scopes[i]? = some s → g'.scopes[i]? = some s)
    {scope : ScopeId}
    {t : Ty}
    (h : g.InputFits B scope t) :
    g'.InputFits B scope t := by
  obtain ⟨above, s, i, habove, hs, hi, hfits⟩ := h
  exact ⟨above, s, i, habove.mono hscopes, hscopes hs, hi, hfits⟩

theorem Bypass.mono
    {B : Build}
    {g g' : Graph}
    (hscopes : ∀ {i : Nat} {s : Scope}, g.scopes[i]? = some s → g'.scopes[i]? = some s)
    {n d : NodeId}
    (hn : g'.node? n = g.node? n)
    (h : g.Bypass B n d) :
    g'.Bypass B n d := by
  obtain ⟨scope, r, hasks, hfits⟩ := h
  exact ⟨scope, r, hasks.congr hn, hfits.mono hscopes⟩

end Graph

/-- What a part of a search with a stack of open nodes has explored: `found` are the
nodes it came to, of which only those in `Loose` need not have been checked against the
stack. -/
structure Explored (B : Build) (Loose : NodeId → Prop) (stack : List NodeId)
    (g g' : Graph) (found : List NodeId) : Prop where
  scopes {i : Nat} {s : Scope} : g.scopes[i]? = some s → g'.scopes[i]? = some s
  size : g.nodes.size ≤ g'.nodes.size
  /-- Only open nodes have changed. -/
  frame {id : NodeId} : id.index < g.nodes.size → id ∉ stack → g'.node? id = g.node? id
  /-- Nodes that put cycles off go on doing so. -/
  breaks {id : NodeId} : g.breaksCycles id = true → g'.breaksCycles id = true
  /-- The new nodes refer to nodes that are there. -/
  closed {n d : NodeId} :
    g.nodes.size ≤ n.index → g'.Edge n d → d.index < g'.nodes.size
  found_lt {r : NodeId} : r ∈ found → r.index < g'.nodes.size
  /-- Every new node is behind one of those that the part came to. -/
  cover {d : NodeId} :
    g.nodes.size ≤ d.index → d.index < g'.nodes.size →
    ∃ r ∈ found, g.nodes.size ≤ r.index ∧ g'.Behind r d
  /-- Preorder: what was appended between a node and one behind it is behind it. -/
  interval {m d n : NodeId} :
    g.nodes.size ≤ m.index → g'.Behind m n → m.index ≤ d.index → d.index ≤ n.index →
    g'.Behind m d
  /-- Edges back to a new node have been checked. -/
  inner {w m : NodeId} :
    g.nodes.size ≤ m.index → g'.Edge w m → g'.Behind m w →
    g'.Bypass B w m ∨ g'.PutsOffBetween m w
  /-- Edges back to an open node have been checked. -/
  outer {w m : NodeId} :
    g.nodes.size ≤ w.index → g'.Edge w m → m ∈ stack →
    g'.Bypass B w m ∨ g'.PutsOff (stack.dropWhile (fun i => i ≠ m))
      ∨ ∃ p, g.nodes.size ≤ p.index ∧ g'.breaksCycles p = true ∧ g'.Behind p w
  /-- Open nodes that the part came to have been checked. -/
  again {r : NodeId} :
    r ∈ found → r ∈ stack →
    Loose r ∨ g'.PutsOff (stack.dropWhile (fun i => i ≠ r))

namespace Explored

variable {B : Build} {Loose Loose' : NodeId → Prop} {stack : List NodeId}
  {g g₁ g' : Graph} {found found' : List NodeId}

theorem putsOff_mono
    (hbreaks : ∀ {id : NodeId}, g.breaksCycles id = true → g'.breaksCycles id = true)
    {ids : List NodeId}
    (h : g.PutsOff ids) :
    g'.PutsOff ids := by
  obtain ⟨p, hp, hb⟩ := h
  exact ⟨p, hp, hbreaks hb⟩

/-- Without new nodes, only the answers are to be checked. -/
theorem of_nodes_eq
    (hnodes : g'.nodes = g.nodes)
    (hscopes : ∀ {i : Nat} {s : Scope}, g.scopes[i]? = some s → g'.scopes[i]? = some s)
    (hfound : ∀ r ∈ found, r.index < g.nodes.size)
    (hagain : ∀ r ∈ found, r ∈ stack →
      Loose r ∨ g.PutsOff (stack.dropWhile (fun i => i ≠ r))) :
    Explored B Loose stack g g' found := by
  have hnode := Graph.node?_congr hnodes
  have hbreaks : ∀ {id}, g.breaksCycles id = true → g'.breaksCycles id = true :=
    fun {id} h => (Graph.breaksCycles_congr (hnode id)).trans h
  have hsize : g'.nodes.size = g.nodes.size := congrArg Array.size hnodes
  refine
    { scopes := hscopes
      size := Nat.le_of_eq hsize.symm
      frame := fun {id} _ _ => hnode id
      breaks := hbreaks
      closed := fun hn he => ?_
      found_lt := fun hr => hsize ▸ hfound _ hr
      cover := fun hd hd' => ?_
      interval := fun {m d n} hm hb hd hn => ?_
      inner := fun hm he hb => ?_
      outer := fun hw he _ => ?_
      again := fun hr hs => (hagain _ hr hs).imp_right (putsOff_mono hbreaks) }
  · have := he.lt
    omega
  · omega
  · -- nothing is behind a node that is not there but itself
    rcases Relation.ReflTransGen.cases_head hb with rfl | ⟨c, hc, -⟩
    · rw [NodeId.eq_of_index (Nat.le_antisymm hd hn)]
      exact .refl
    · have := hc.2.lt
      omega
  · have := he.lt
    have := hb.le
    omega
  · have := he.lt
    omega

theorem refl : Explored B Loose stack g g [] :=
  of_nodes_eq rfl id (fun _ h => nomatch h) (fun _ h => nomatch h)

theorem imp
    (h : Explored B Loose stack g g' found)
    (himp : ∀ r ∈ found, Loose r → Loose' r) :
    Explored B Loose' stack g g' found :=
  { h with again := fun hr hs => (h.again hr hs).imp_left (himp _ hr) }

/-! ## Two parts in sequence -/

section Seq

/-- Paths from a new node are still there after the next part. -/
theorem behind_later
    (h₂ : Explored B Loose' stack g₁ g' found')
    (hstack : ∀ i ∈ stack, i.index < g.nodes.size)
    {m n : NodeId}
    (hm : g.nodes.size ≤ m.index)
    (h : g₁.Behind m n) :
    g'.Behind m n := by
  induction h with
  | refl => exact .refl
  | @tail b c hb hc ih =>
      have hlt := hc.2.lt
      have hnot : b ∉ stack := fun hmem => by
        have := hstack b hmem
        have := Graph.Behind.le hb
        omega
      exact ih.tail ⟨hc.1, hc.2.congr (h₂.frame hlt hnot)⟩

/-- Paths from a node of the first part stay in the first part. -/
theorem behind_earlier
    (h₁ : Explored B Loose stack g g₁ found)
    (h₂ : Explored B Loose' stack g₁ g' found')
    (hstack : ∀ i ∈ stack, i.index < g.nodes.size)
    {m n : NodeId}
    (hm : g.nodes.size ≤ m.index)
    (hm' : m.index < g₁.nodes.size)
    (h : g'.Behind m n) :
    n.index < g₁.nodes.size ∧ g₁.Behind m n := by
  induction h with
  | refl => exact ⟨hm', .refl⟩
  | @tail b c hb hc ih =>
      obtain ⟨hlt, hb₁⟩ := ih
      have hge := hb₁.le
      have hnot : b ∉ stack := fun hmem => by
        have := hstack b hmem
        omega
      have hedge : g₁.Edge b c := hc.2.congr (h₂.frame hlt hnot).symm
      exact ⟨h₁.closed (Nat.le_trans hm hge) hedge, hb₁.tail ⟨hc.1, hedge⟩⟩

/-- Two parts of a search, one after the other. -/
theorem seq
    (h₁ : Explored B Loose stack g g₁ found)
    (h₂ : Explored B Loose' stack g₁ g' found')
    (hstack : ∀ i ∈ stack, i.index < g.nodes.size) :
    Explored B (fun r => (r ∈ found ∧ Loose r) ∨ (r ∈ found' ∧ Loose' r)) stack g g'
      (found ++ found') := by
  have hsize₁ := h₁.size
  have hsize₂ := h₂.size
  have hnot : ∀ {n : NodeId}, g.nodes.size ≤ n.index → n ∉ stack := fun {n} hn hmem => by
    have := hstack n hmem
    omega
  -- a node of the first part has the edges it had
  have hframe : ∀ {n : NodeId}, g.nodes.size ≤ n.index → n.index < g₁.nodes.size →
      g'.node? n = g₁.node? n := fun hn hlt => h₂.frame hlt (hnot hn)
  refine
    { scopes := fun hs => h₂.scopes (h₁.scopes hs)
      size := Nat.le_trans hsize₁ hsize₂
      frame := fun hid hst =>
        (h₂.frame (Nat.lt_of_lt_of_le hid hsize₁) hst).trans (h₁.frame hid hst)
      breaks := fun hb => h₂.breaks (h₁.breaks hb)
      closed := fun {n d} hn he => ?_
      found_lt := fun {r} hr => ?_
      cover := fun {d} hd hd' => ?_
      interval := fun {m d n} hm hb hd hn => ?_
      inner := fun {w m} hm he hb => ?_
      outer := fun {w m} hw he hs => ?_
      again := fun {r} hr hs => ?_ }
  · by_cases hlt : n.index < g₁.nodes.size
    · exact Nat.lt_of_lt_of_le (h₁.closed hn (he.congr (hframe hn hlt).symm)) hsize₂
    · exact h₂.closed (Nat.le_of_not_lt hlt) he
  · rcases List.mem_append.mp hr with hr | hr
    · exact Nat.lt_of_lt_of_le (h₁.found_lt hr) hsize₂
    · exact h₂.found_lt hr
  · by_cases hlt : d.index < g₁.nodes.size
    · obtain ⟨r, hr, hge, hb⟩ := h₁.cover hd hlt
      exact ⟨r, List.mem_append_left _ hr, hge, behind_later h₂ hstack hge hb⟩
    · obtain ⟨r, hr, hge, hb⟩ := h₂.cover (Nat.le_of_not_lt hlt) hd'
      exact ⟨r, List.mem_append_right _ hr, Nat.le_trans hsize₁ hge, hb⟩
  · by_cases hlt : m.index < g₁.nodes.size
    · obtain ⟨-, hb₁⟩ := behind_earlier h₁ h₂ hstack hm hlt hb
      exact behind_later h₂ hstack hm (h₁.interval hm hb₁ hd hn)
    · exact h₂.interval (Nat.le_of_not_lt hlt) hb hd hn
  · by_cases hlt : m.index < g₁.nodes.size
    · obtain ⟨hw, hb₁⟩ := behind_earlier h₁ h₂ hstack hm hlt hb
      have hge : g.nodes.size ≤ w.index := Nat.le_trans hm hb₁.le
      have hedge : g₁.Edge w m := he.congr (hframe hge hw).symm
      rcases h₁.inner hm hedge hb₁ with hbypass | ⟨p, hp, hmp, hpw⟩
      · exact .inl (hbypass.mono h₂.scopes (hframe hge hw))
      · exact .inr ⟨p, h₂.breaks hp, behind_later h₂ hstack hm hmp,
          behind_later h₂ hstack (Nat.le_trans hm hmp.le) hpw⟩
    · exact h₂.inner (Nat.le_of_not_lt hlt) he hb
  · by_cases hlt : w.index < g₁.nodes.size
    · have hedge : g₁.Edge w m := he.congr (hframe hw hlt).symm
      rcases h₁.outer hw hedge hs with hbypass | hoff | ⟨p, hp, hpb, hpw⟩
      · exact .inl (hbypass.mono h₂.scopes (hframe hw hlt))
      · exact .inr (.inl (putsOff_mono h₂.breaks hoff))
      · exact .inr (.inr ⟨p, hp, h₂.breaks hpb, behind_later h₂ hstack hp hpw⟩)
    · rcases h₂.outer (Nat.le_of_not_lt hlt) he hs with hbypass | hoff | ⟨p, hp, hpb, hpw⟩
      · exact .inl hbypass
      · exact .inr (.inl hoff)
      · exact .inr (.inr ⟨p, Nat.le_trans hsize₁ hp, hpb, hpw⟩)
  · rcases List.mem_append.mp hr with hr | hr
    · rcases h₁.again hr hs with hloose | hoff
      · exact .inl (.inl ⟨hr, hloose⟩)
      · exact .inr (putsOff_mono h₂.breaks hoff)
    · exact (h₂.again hr hs).imp_left (fun hloose => .inr ⟨hr, hloose⟩)

end Seq

/-- A part of a search after a change that leaves the nodes alone. -/
theorem after_same
    (hnodes : g₁.nodes = g.nodes)
    (hscopes : ∀ {i : Nat} {s : Scope}, g.scopes[i]? = some s → g₁.scopes[i]? = some s)
    (hstack : ∀ i ∈ stack, i.index < g.nodes.size)
    (h : Explored B Loose stack g₁ g' found) :
    Explored B Loose stack g g' found := by
  have hsame : Explored B (fun _ => False) stack g g₁ [] :=
    of_nodes_eq hnodes hscopes (fun _ hr => nomatch hr) (fun _ hr => nomatch hr)
  refine (hsame.seq h hstack).imp (fun r _ hloose => ?_)
  rcases hloose with ⟨-, hfalse⟩ | ⟨-, hloose⟩
  · exact hfalse.elim
  · exact hloose

/-- A part of a search before a change that leaves the nodes alone. -/
theorem before_same
    (hnodes : g'.nodes = g₁.nodes)
    (hscopes : ∀ {i : Nat} {s : Scope}, g₁.scopes[i]? = some s → g'.scopes[i]? = some s)
    (hstack : ∀ i ∈ stack, i.index < g.nodes.size)
    (h : Explored B Loose stack g g₁ found) :
    Explored B Loose stack g g' found := by
  have hsame : Explored B (fun _ => False) stack g₁ g' [] :=
    of_nodes_eq hnodes hscopes (fun _ hr => nomatch hr) (fun _ hr => nomatch hr)
  have hseq := h.seq hsame hstack
  rw [List.append_nil] at hseq
  refine hseq.imp (fun r _ hloose => ?_)
  rcases hloose with ⟨-, hloose⟩ | ⟨-, hfalse⟩
  · exact hloose
  · exact hfalse.elim

theorem after_memo
    {m : Memo}
    (hstack : ∀ i ∈ stack, i.index < g.nodes.size)
    (h : Explored B Loose stack (g.withMemo m) g' found) :
    Explored B Loose stack g g' found := by
  have hnodes : (g.withMemo m).nodes = g.nodes := rfl
  exact h.after_same hnodes (fun hs => hs) hstack

theorem before_remember
    (scope : ScopeId)
    (t : Ty)
    (id : NodeId)
    (hstack : ∀ i ∈ stack, i.index < g.nodes.size)
    (h : Explored B Loose stack g g₁ found) :
    Explored B Loose stack g (g₁.remember scope t id) found := by
  have hnodes : (g₁.remember scope t id).nodes = g₁.nodes := rfl
  exact h.before_same hnodes (fun hs => hs) hstack

/-! ## Closing a node -/

section Close

theorem mem_dropWhile_push
    {stack : List NodeId}
    {p m id : NodeId}
    (hp : p ∈ (stack ++ [id]).dropWhile (fun i => i ≠ m)) :
    p ∈ stack.dropWhile (fun i => i ≠ m) ∨ p = id := by
  rw [List.dropWhile_append] at hp
  split at hp
  · have hsub := (List.dropWhile_sublist (l := [id]) (fun i => decide (i ≠ m))).subset hp
    exact .inr (List.mem_singleton.mp hsub)
  · rcases List.mem_append.mp hp with hp | hp
    · exact .inl hp
    · exact .inr (List.mem_singleton.mp hp)

theorem eq_of_mem_dropWhile_push
    {stack : List NodeId}
    {p id : NodeId}
    (hid : id ∉ stack)
    (hp : p ∈ (stack ++ [id]).dropWhile (fun i => i ≠ id)) :
    p = id := by
  rcases mem_dropWhile_push hp with hp | hp
  · have hnil : stack.dropWhile (fun i => i ≠ id) = [] := by
      rw [List.dropWhile_eq_nil_iff]
      intro i hi
      simp only [decide_eq_true_eq]
      rintro rfl
      exact hid hi
    rw [hnil] at hp
    exact nomatch hp
  · exact hp

/-- What is new is the node that was opened or newer than it. -/
theorem eq_nextId_or_newer
    {d : NodeId}
    (hd : g.nodes.size ≤ d.index)
    (n : Node)
    (key : Option Ty)
    (scope : ScopeId) :
    d = g.nextId ∨ (g.begin n key scope).nodes.size ≤ d.index := by
  rw [Graph.begin_size]
  rcases Nat.eq_or_lt_of_le hd with heq | hlt
  · exact .inl (NodeId.eq_of_index heq.symm)
  · exact .inr hlt

variable {n : Node} {key : Option Ty} {scope : ScopeId}

/-- Everything new is behind the node that was opened. -/
theorem behind_opened
    (h : Explored B Loose (stack ++ [g.nextId]) (g.begin n key scope) g' found)
    (hedge : ∀ r ∈ found, g'.Edge g.nextId r)
    {d : NodeId}
    (hd : g.nodes.size ≤ d.index)
    (hd' : d.index < g'.nodes.size) :
    g'.Behind g.nextId d := by
  rcases eq_nextId_or_newer hd n key scope with rfl | hnew
  · exact .refl
  · obtain ⟨r, hr, hge, hb⟩ := h.cover hnew hd'
    rw [Graph.begin_size] at hge
    exact .head ⟨hge, hedge r hr⟩ hb

/-- The node that was opened and the newer ones refer to nodes that are there. -/
theorem closed_opened
    (h : Explored B Loose (stack ++ [g.nextId]) (g.begin n key scope) g' found)
    (hedge : ∀ d, g'.Edge g.nextId d → d ∈ found)
    {w d : NodeId}
    (hw : g.nodes.size ≤ w.index)
    (he : g'.Edge w d) :
    d.index < g'.nodes.size := by
  rcases eq_nextId_or_newer hw n key scope with rfl | hnew
  · exact h.found_lt (hedge d he)
  · exact h.closed hnew he

/-- Edges from the node that was opened, or from newer ones, back to an open node have
been checked. -/
theorem checked_opened
    (h : Explored B Loose (stack ++ [g.nextId]) (g.begin n key scope) g' found)
    (hedge : ∀ d, g'.Edge g.nextId d → d ∈ found)
    (hloose : ∀ r ∈ found, Loose r → g'.Bypass B g.nextId r)
    {w m : NodeId}
    (hw : g.nodes.size ≤ w.index)
    (he : g'.Edge w m)
    (hm : m ∈ stack ++ [g.nextId]) :
    g'.Bypass B w m
      ∨ g'.PutsOff ((stack ++ [g.nextId]).dropWhile (fun i => i ≠ m))
      ∨ ∃ p, g.nodes.size ≤ p.index ∧ g'.breaksCycles p = true ∧ g'.Behind p w := by
  rcases eq_nextId_or_newer hw n key scope with rfl | hnew
  · rcases h.again (hedge m he) hm with hl | hoff
    · exact .inl (hloose m (hedge m he) hl)
    · exact .inr (.inl hoff)
  · rcases h.outer hnew he hm with hbypass | hoff | ⟨p, hp, hpb, hpw⟩
    · exact .inl hbypass
    · exact .inr (.inl hoff)
    · rw [Graph.begin_size] at hp
      exact .inr (.inr ⟨p, Nat.le_of_succ_le hp, hpb, hpw⟩)

/-- The node that was opened and what was explored meanwhile leave the nodes from before
alone, but for those that were open already. -/
theorem frame_opened
    (h : Explored B Loose (stack ++ [g.nextId]) (g.begin n key scope) g' found)
    {id : NodeId}
    (hid : id.index < g.nodes.size)
    (hst : id ∉ stack) :
    g'.node? id = g.node? id := by
  have hgrows := (Graph.Grows.refl g).begin n key scope
  have hne : id ≠ g.nextId := by
    rintro rfl
    exact Nat.lt_irrefl _ hid
  have hnot : id ∉ stack ++ [g.nextId] := by
    rw [List.mem_append, List.mem_singleton]
    exact not_or.mpr ⟨hst, hne⟩
  rw [h.frame (Nat.lt_of_lt_of_le hid hgrows.size_nodes) hnot]
  exact hgrows.node?_eq hid

/-- A node whose edges lead to what was found while it was open, and everything that
was explored meanwhile. -/
theorem close
    (h : Explored B Loose (stack ++ [g.nextId]) (g.begin n key scope) g' found)
    (hstack : ∀ i ∈ stack, i.index < g.nodes.size)
    {node : Node}
    (hnode : g'.node? g.nextId = some node)
    (hedges : ∀ d, d ∈ node.edges ↔ d ∈ found)
    (hloose : ∀ r ∈ found, Loose r → g'.Bypass B g.nextId r) :
    Explored B (fun _ => False) stack g g' [g.nextId] := by
  have hgrows := (Graph.Grows.refl g).begin n key scope
  have hnotin : g.nextId ∉ stack := fun hmem => Nat.lt_irrefl _ (hstack _ hmem)
  have hlt : g.nextId.index < g'.nodes.size := Graph.lt_size_of_node? hnode
  have hto : ∀ r ∈ found, g'.Edge g.nextId r := fun r hr => ⟨node, hnode, (hedges r).mpr hr⟩
  have hfrom : ∀ d, g'.Edge g.nextId d → d ∈ found := by
    rintro d ⟨node', hnode', hd⟩
    rw [hnode] at hnode'
    cases hnode'
    exact (hedges d).mp hd
  refine
    { scopes := fun hs => h.scopes (hgrows.scopes hs)
      size := Nat.le_of_lt hlt
      frame := h.frame_opened
      breaks := fun {id} hb => h.breaks (hgrows.breaksCycles hb)
      closed := h.closed_opened hfrom
      found_lt := fun {r} hr => by rw [List.mem_singleton.mp hr]; exact hlt
      cover := fun hd hd' =>
        ⟨g.nextId, List.mem_singleton_self _, Nat.le_refl _, h.behind_opened hto hd hd'⟩
      interval := fun {m d n'} hm hb hd hn => ?_
      inner := fun {w m} hm he hb => ?_
      outer := fun {w m} hw he hs => ?_
      again := fun {r} hr hs => ?_ }
  · rcases eq_nextId_or_newer hm n key scope with rfl | hnew
    · refine h.behind_opened hto (Nat.le_trans hm hd) (Nat.lt_of_le_of_lt hn ?_)
      rcases Relation.ReflTransGen.cases_tail hb with rfl | ⟨c, hc, hstep⟩
      · exact hlt
      · exact h.closed_opened hfrom (Nat.le_trans hm (Graph.Behind.le hc)) hstep.2
    · exact h.interval hnew hb hd hn
  · rcases eq_nextId_or_newer hm n key scope with rfl | hnew
    · have hself : g.nextId ∈ stack ++ [g.nextId] := List.mem_concat_self
      rcases h.checked_opened hfrom hloose hb.le he hself with
        hbypass | ⟨p, hp, hpb⟩ | ⟨p, hp, hpb, hpw⟩
      · exact .inl hbypass
      · -- the node itself is checked as the innermost of the stack
        rw [eq_of_mem_dropWhile_push hnotin hp] at hpb
        exact .inr ⟨g.nextId, hpb, .refl, hb⟩
      · have hp' : p.index < g'.nodes.size := Nat.lt_of_le_of_lt hpw.le he.lt
        exact .inr ⟨p, hpb, h.behind_opened hto hp hp', hpw⟩
    · exact h.inner hnew he hb
  · rcases h.checked_opened hfrom hloose hw he (List.mem_append_left _ hs) with
      hbypass | ⟨p, hp, hpb⟩ | hoff
    · exact .inl hbypass
    · rcases mem_dropWhile_push hp with hp | rfl
      · exact .inr (.inl ⟨p, hp, hpb⟩)
      · exact .inr (.inr ⟨g.nextId, Nat.le_refl _, hpb, h.behind_opened hto hw he.lt⟩)
    · exact .inr (.inr hoff)
  · rw [List.mem_singleton.mp hr] at hs
    exact absurd hs hnotin

end Close

end Explored
end Wiring
