import Desmume.Bios.Ram
import Desmume.Library.BitFields
import Desmume.Library.CompressedStream

/-! The way of the Huffman decoder through its tree. A node says how far behind it the pair of its
children lies, and which of them are leaves. -/

namespace Desmume.Bios
open Library

/-- Where the children of a node at an address are. -/
def childPair (a : BitVec 32) (node : BitVec 8) : BitVec 32 :=
  (a &&& (0xFFFFFFFE : BitVec 32)) + (node &&& 0x3F).setWidth 32 <<< 1 + 2

/-- The child on a side. -/
def childAddress (a : BitVec 32) (node : BitVec 8) (right : Bool) : BitVec 32 :=
  if right then childPair a node + 1 else childPair a node

/-- A tree in memory, with its root at an address. -/
def TreeAt (keep : BitVec 32 → Prop) (m : Memory) : CodeTree (BitVec 8) → BitVec 32 → Prop
  | .leaf s, a => keep a ∧ m a = s
  | .node left right, a => keep a ∧ ((m a).getLsbD 7 = left.isLeaf ∧ (m a).getLsbD 6 = right.isLeaf) ∧
      TreeAt keep m left (childAddress a (m a) false) ∧ TreeAt keep m right (childAddress a (m a) true)

/-- The fields that collect the symbols. -/
structure Collector where
  dest : BitVec 32
  len : ℤ
  byteCount : ℕ
  byteShift : ℕ
  writeValue : BitVec 32
  halfLen : ℕ
  value : BitVec 32

def Huffman.collector (h : Huffman) : Collector :=
  ⟨h.dest, h.len, h.byteCount, h.byteShift, h.writeValue, h.halfLen, h.value⟩

section Addresses

theorem toNat_evenPart (a : BitVec 32) : (a &&& 0xFFFFFFFE).toNat = a.toNat - a.toNat % 2 := by
  rw [BitVec.toNat_and, and_rangeMask a.toNat (j := 1) (k := 32) (by decide) (by decide),
    Nat.mod_eq_of_lt a.isLt, pow_one]

theorem toNat_offset (node : BitVec 8) :
    ((node &&& 0x3F).setWidth 32 <<< 1 : BitVec 32).toNat = 2 * (node &&& 0x3F).toNat := by
  have hlt := (node &&& 0x3F).isLt
  rw [BitVec.toNat_shiftLeft, BitVec.toNat_setWidth, Nat.shiftLeft_eq, pow_one,
    Nat.mod_eq_of_lt (by omega), Nat.mod_eq_of_lt (by omega), Nat.mul_comm]

theorem toNat_childPair (a : BitVec 32) (node : BitVec 8) : (childPair a node).toNat =
    (a.toNat - a.toNat % 2 + 2 * (node &&& 0x3F).toNat + 2) % 2 ^ 32 := by
  rw [childPair, BitVec.toNat_add, BitVec.toNat_add, toNat_evenPart, toNat_offset, Nat.mod_add_mod]
  rfl

theorem two_dvd_childPair (a : BitVec 32) (node : BitVec 8) : 2 ∣ (childPair a node).toNat := by
  rw [toNat_childPair]
  omega

/-- Both children are in the pair. -/
theorem evenPart_childAddress (a : BitVec 32) (node : BitVec 8) (right : Bool) :
    childAddress a node right &&& 0xFFFFFFFE = childPair a node := by
  have heven := two_dvd_childPair a node
  have hlt := (childPair a node).isLt
  apply BitVec.eq_of_toNat_eq
  rw [toNat_evenPart, childAddress]
  split_ifs
  · rw [BitVec.toNat_add]
    change ((childPair a node).toNat + 1) % _ - ((childPair a node).toNat + 1) % _ % 2 = _
    omega
  · omega

end Addresses

/-- The decoder is at a node: at the root, whose children are next to it, or below. -/
structure AtNode (treeStart a : BitVec 32) (h : Huffman) (node : BitVec 8) : Prop where
  currentNode : h.currentNode = node
  pos : h.pos = 0 ∧ a = treeStart ∧ node &&& 0x3F = 0 ∨ h.pos ≠ 0 ∧ treeStart + h.pos = a &&& 0xFFFFFFFE

/-- The place of the next pair of children. -/
def Huffman.nextPos (h : Huffman) : BitVec 32 :=
  if h.pos = 0 then h.pos + 1 else h.pos + ((h.currentNode &&& 0x3F).setWidth 32 + 1) <<< 1

theorem AtNode.nextPos_eq {treeStart a : BitVec 32} {h : Huffman} {node : BitVec 8}
    (hodd : ¬ 2 ∣ treeStart.toNat) (hat : AtNode treeStart a h node) :
    treeStart + h.nextPos = childPair a node := by
  obtain ⟨rfl, hpos⟩ := hat
  rcases hpos with ⟨hzero, rfl, hnode⟩ | ⟨hne, hpair⟩
  · rw [Huffman.nextPos, if_pos hzero, hzero]
    apply BitVec.eq_of_toNat_eq
    rw [toNat_childPair, hnode, BitVec.toNat_add]
    change (a.toNat + 1) % 2 ^ 32 = (a.toNat - a.toNat % 2 + 2 * 0 + 2) % 2 ^ 32
    omega
  · have hstep : (((h.currentNode &&& 0x3F).setWidth 32 + 1) <<< 1 : BitVec 32) =
        (h.currentNode &&& 0x3F).setWidth 32 <<< 1 + 2 := by
      have hall : ∀ x : BitVec 8, (((x &&& 0x3F).setWidth 32 + 1) <<< 1 : BitVec 32) =
        (x &&& 0x3F).setWidth 32 <<< 1 + 2 := by decide
      exact hall _
    rw [Huffman.nextPos, if_neg hne, hstep, ← BitVec.add_assoc, hpair, ← BitVec.add_assoc, childPair]

theorem AtNode.nextPos_ne_zero {treeStart a : BitVec 32} {h : Huffman} {node : BitVec 8}
    (hodd : ¬ 2 ∣ treeStart.toNat) (hat : AtNode treeStart a h node) : h.nextPos ≠ 0 := by
  intro hzero
  have hpair := hat.nextPos_eq hodd
  rw [hzero, BitVec.ofNat_eq_ofNat, BitVec.add_zero] at hpair
  exact hodd (hpair ▸ two_dvd_childPair a node)

/-- The bits that are still to be read: of the word in `data` from the mask on, and of the words
behind it. -/
def Ahead (keep : BitVec 32 → Prop) (m : Memory) (bits : List Bool) (h : Huffman) : Prop :=
  ∃ k < 32, ∃ ws : List (BitVec 32), h.mask = (0x80000000 : BitVec 32) >>> k ∧
    bits = (topBits h.data).drop k ++ ws.flatMap topBits ∧ 4 ∣ h.source.toNat ∧
      HoldsSpan keep m h.source (unitBytes 4 ws)

section Bits

variable {μ : Type} {bus : Bus μ} {p : Proc} {holds : μ → Memory → Prop} {region keep : BitVec 32 → Prop}
  {cpu : Proc → Armcpu} {m m' : Memory} {h : Huffman} {b : Bool} {bits : List Bool}

theorem Ahead.bit (hahead : Ahead keep m (b :: bits) h) : decide (h.data &&& h.mask ≠ 0) = b := by
  obtain ⟨k, hk, ws, hmask, hbits, -, -⟩ := hahead
  have hall : ∀ k < 32, (0x80000000 : BitVec 32) >>> k = BitVec.twoPow 32 (31 - k) ∧
      BitVec.twoPow 32 (31 - k) ≠ 0 := by decide
  obtain ⟨hpow, hne⟩ := hall k hk
  rw [drop_topBits _ hk, List.cons_append, List.cons.injEq] at hbits
  rw [hmask, hpow, BitVec.and_twoPow, hbits.1]
  change decide ((if h.data.getLsbD (31 - k) = true then _ else _) ≠ _) = h.data.getLsbD (31 - k)
  split_ifs with hbit
  · rw [hbit]
    exact decide_eq_true hne
  · rw [Bool.eq_false_iff.2 hbit]
    exact decide_eq_false (not_not.2 rfl)

/-- The end of a round: the mask goes on to the next bit, and the next word is read behind the
last one. -/
def nextBit (bus : Bus μ) (p : Proc) (h : Huffman) : Call μ (BitVec 32 ⊕ Huffman) := do
  if h.mask >>> 1 = 0 then
    let data ← mmuRead32 bus p h.source
    return .inr { h with mask := 0x80000000, data := data, source := h.source + 4 }
  else return .inr { h with mask := h.mask >>> 1 }

theorem leads_nextBit (ram : Ram bus p holds region) (hkept : ∀ a, keep a → region a ∧ m' a = m a)
    (hahead : Ahead keep m (b :: bits) h) (hbits : bits ≠ []) : ∃ h',
    Leads (Looks holds) (nextBit bus p h) (cpu, m') (.inr h') (cpu, m') ∧ Ahead keep m bits h' ∧
      h'.pos = h.pos ∧ h'.currentNode = h.currentNode ∧ h'.collector = h.collector := by
  obtain ⟨k, hk, ws, hmask, heq, hdvd, hws⟩ := hahead
  have hall : ∀ k < 32, ((0x80000000 : BitVec 32) >>> (k + 1) = 0 ↔ k = 31) := by decide
  rw [drop_topBits _ hk, List.cons_append, List.cons.injEq] at heq
  rw [nextBit]
  split_ifs with hlast
  · rw [hmask, ← BitVec.shiftRight_add, hall k hk] at hlast
    subst hlast
    have hnone : (topBits h.data).drop 32 = [] := List.drop_of_length_le (length_topBits h.data).le
    cases ws with
    | nil =>
      rw [hnone, List.flatMap_nil, List.append_nil] at heq
      exact absurd heq.2 hbits
    | cons w ws =>
      obtain ⟨hw, hrest⟩ := HoldsSpan.append_iff.1 hws
      rw [length_leBytes] at hrest
      have hword : HoldsSpan region m' h.source (leBytes 4 w.toNat) := by
        intro i hi
        obtain ⟨hkeep, hbyte⟩ := hw i hi
        exact ⟨(hkept _ hkeep).1, (hkept _ hkeep).2.trans hbyte⟩
      refine ⟨_, (ram.leads_readWord hdvd hword).bind (leads_pure _ _),
        ⟨0, by decide, ws, rfl, ?_, dvd_behind (by decide) hdvd (Nat.dvd_refl 4), hrest⟩, rfl, rfl, rfl⟩
      rw [heq.2, hnone, List.nil_append, List.flatMap_cons]
      rfl
  · rw [hmask, ← BitVec.shiftRight_add, hall k hk] at hlast
    refine ⟨_, leads_pure _ _, ⟨k + 1, by omega, ws, ?_, heq.2, hdvd, hws⟩, rfl, rfl, rfl⟩
    rw [hmask, ← BitVec.shiftRight_add]

theorem Ahead.of_eq {h' : Huffman} (hahead : Ahead keep m bits h) (hmask : h'.mask = h.mask)
    (hdata : h'.data = h.data) (hsource : h'.source = h.source) : Ahead keep m bits h' := by
  obtain ⟨k, hk, ws, hk', heq, hdvd, hws⟩ := hahead
  exact ⟨k, hk, ws, hmask.trans hk', by rw [hdata, heq], hsource ▸ hdvd, hsource ▸ hws⟩

end Bits

section Rounds

variable {μ : Type} {bus : Bus μ} {p : Proc} {holds : μ → Memory → Prop} {region keep : BitVec 32 → Prop}
  {cpu : Proc → Armcpu} {m m' : Memory} {h : Huffman} {b : Bool} {bits : List Bool}
  {symbol : Huffman → Call μ Huffman} {treeStart a : BitVec 32} {left right : CodeTree (BitVec 8)}

theorem TreeAt.kept {t : CodeTree (BitVec 8)} (htree : TreeAt keep m t a) : keep a := by
  cases t with
  | leaf s => exact htree.1
  | node left right => exact htree.1

theorem TreeAt.child (htree : TreeAt keep m (.node left right) a) (b : Bool) :
    TreeAt keep m (CodeTree.child left right b) (childAddress a (m a) b) := by
  cases b with
  | false => exact htree.2.2.1
  | true => exact htree.2.2.2

/-- The flag of a child. -/
theorem TreeAt.flag (htree : TreeAt keep m (.node left right) a) (b : Bool) :
    decide (m a &&& (if b then 0x40 else 0x80) ≠ 0) = (CodeTree.child left right b).isLeaf := by
  have hall : ∀ x : BitVec 8, decide (x &&& 0x80 ≠ 0) = x.getLsbD 7 ∧
      decide (x &&& 0x40 ≠ 0) = x.getLsbD 6 := by decide
  cases b with
  | false => exact (hall (m a)).1.trans htree.2.1.1
  | true => exact (hall (m a)).2.trans htree.2.1.2

/-- A round reads the child on the side of the next bit. -/
theorem leads_huffmanBit {h' : Huffman} {m'' : Memory} {r : BitVec 32 ⊕ Huffman} (ram : Ram bus p holds region)
    (hkept : ∀ a, keep a → region a ∧ m' a = m a) (hodd : ¬ 2 ∣ treeStart.toNat)
    (htree : TreeAt keep m (.node left right) a) (hat : AtNode treeStart a h (m a))
    (hahead : Ahead keep m (b :: bits) h) {rootNode : BitVec 8}
    (hsymbol : Leads (Looks holds)
      (if (CodeTree.child left right b).isLeaf then do
          let h ← symbol { h with pos := h.nextPos, currentNode := m (childAddress a (m a) b) }
          return { h with pos := 0, currentNode := rootNode }
        else pure { h with pos := h.nextPos, currentNode := m (childAddress a (m a) b) })
      (cpu, m') h' (cpu, m''))
    (hnext : Leads (Looks holds) (nextBit bus p h') (cpu, m'') r (cpu, m'')) :
    Leads (Looks holds) (huffmanBit bus p symbol treeStart rootNode h) (cpu, m') r (cpu, m'') := by
  have haddr : (if b then treeStart + h.nextPos + 1 else treeStart + h.nextPos) =
      childAddress a (m a) b := by
    rw [hat.nextPos_eq hodd, childAddress]
  have hchild := hkept _ (htree.child b).kept
  have hread : Leads (Looks holds) (mmuRead08 bus p (childAddress a (m a) b)) (cpu, m')
      (m (childAddress a (m a) b)) (cpu, m') :=
    ram.leads_read08 (HoldsSpan.cons_iff.2 ⟨hchild, nofun⟩)
  have hflag := htree.flag b
  rw [← hat.currentNode] at hflag
  simp only [huffmanBit, hahead.bit, hflag]
  change Leads _ (mmuRead08 bus p (if b then treeStart + h.nextPos + 1 else treeStart + h.nextPos) >>= _)
    _ _ _
  rw [haddr]
  refine hread.bind ?_
  by_cases hleaf : (CodeTree.child left right b).isLeaf
  · rw [if_pos hleaf] at hsymbol ⊢
    exact hsymbol.bind hnext
  · rw [if_neg hleaf] at hsymbol ⊢
    exact hsymbol.bind hnext

/-- A round that ends at an inner node. -/
theorem leads_huffmanBit_inner (ram : Ram bus p holds region)
    (hkept : ∀ a, keep a → region a ∧ m' a = m a) (hodd : ¬ 2 ∣ treeStart.toNat)
    (htree : TreeAt keep m (.node left right) a) (hat : AtNode treeStart a h (m a))
    (hahead : Ahead keep m (b :: bits) h) (hbits : bits ≠ []) (rootNode : BitVec 8)
    (hleaf : (CodeTree.child left right b).isLeaf = false) : ∃ h',
    Leads (Looks holds) (huffmanBit bus p symbol treeStart rootNode h) (cpu, m') (.inr h') (cpu, m') ∧
      AtNode treeStart (childAddress a (m a) b) h' (m (childAddress a (m a) b)) ∧
        Ahead keep m bits h' ∧ h'.collector = h.collector := by
  have hahead' : Ahead keep m (b :: bits)
      { h with pos := h.nextPos, currentNode := m (childAddress a (m a) b) } :=
    hahead.of_eq rfl rfl rfl
  obtain ⟨h', hnext, hrest, hpos, hnode, hcollector⟩ := leads_nextBit ram hkept hahead' hbits
  refine ⟨h', leads_huffmanBit ram hkept hodd htree hat hahead ?_ hnext, ⟨hnode, .inr ⟨?_, ?_⟩⟩, hrest,
    hcollector⟩
  · rw [hleaf, if_neg Bool.false_ne_true]
    exact leads_pure _ _
  · rw [hpos]
    exact hat.nextPos_ne_zero hodd
  · rw [hpos, evenPart_childAddress]
    exact hat.nextPos_eq hodd

/-- The symbol is collected, from what satisfies `P` to what satisfies `Q`, and the stream stays. -/
def Collects (holds : μ → Memory → Prop) (cpu : Proc → Armcpu) (symbol : Huffman → Call μ Huffman)
    (s : BitVec 8) (P Q : Collector → Memory → Prop) : Prop :=
  ∀ {h m}, P h.collector m → h.currentNode = s → ∃ h' m',
    Leads (Looks holds) (symbol h) (cpu, m) h' (cpu, m') ∧ Q h'.collector m' ∧
      h'.mask = h.mask ∧ h'.data = h.data ∧ h'.source = h.source

/-- The decoder is at the root, in the beginning or behind a symbol. -/
structure AtRoot (keep : BitVec 32 → Prop) (m : Memory) (rootNode : BitVec 8) (bits : List Bool)
    (h : Huffman) : Prop where
  pos : h.pos = 0
  currentNode : h.currentNode = rootNode
  ahead : Ahead keep m bits h

variable {s rootNode : BitVec 8} {P Q : Collector → Memory → Prop}

/-- A round that ends at a leaf. -/
theorem leads_huffmanBit_leaf (ram : Ram bus p holds region) (hodd : ¬ 2 ∣ treeStart.toNat)
    (htree : TreeAt keep m (.node left right) a) (hat : AtNode treeStart a h (m a))
    (hahead : Ahead keep m (b :: bits) h) (hbits : bits ≠ [])
    (hleaf : CodeTree.child left right b = .leaf s) (hsymbol : Collects holds cpu symbol s P Q)
    (hP : P h.collector m') (hkept : ∀ c m', P c m' ∨ Q c m' → ∀ a, keep a → region a ∧ m' a = m a) :
    ∃ h' m'',
      Leads (Looks holds) (huffmanBit bus p symbol treeStart rootNode h) (cpu, m') (.inr h')
          (cpu, m'') ∧
        AtRoot keep m rootNode bits h' ∧ Q h'.collector m'' := by
  have hchild := htree.child b
  rw [hleaf] at hchild
  obtain ⟨h₁, m'', hcollect, hQ, hmask, hdata, hsource⟩ := hsymbol
    (h := { h with pos := h.nextPos, currentNode := m (childAddress a (m a) b) }) hP hchild.2
  have hahead' : Ahead keep m (b :: bits) { h₁ with pos := 0, currentNode := rootNode } :=
    hahead.of_eq hmask hdata hsource
  obtain ⟨h', hnext, hrest, hpos, hnode, hcollector⟩ :=
    leads_nextBit ram (hkept _ _ (.inr hQ)) hahead' hbits
  refine ⟨h', m'', leads_huffmanBit ram (hkept _ _ (.inl hP)) hodd htree hat hahead ?_ hnext,
    ⟨hpos, hnode, hrest⟩, hcollector ▸ hQ⟩
  rw [hleaf, CodeTree.isLeaf, if_pos rfl]
  exact hcollect.bind (leads_pure _ _)

/-- A code leads to its symbol, by induction on the tree. -/
theorem advances_code (ram : Ram bus p holds region) (hodd : ¬ 2 ∣ treeStart.toNat)
    {t : CodeTree (BitVec 8)} {code : List Bool} (htree : TreeAt keep m t a) (hinner : t.isLeaf = false)
    (hcode : t.at? code = some s) (hat : AtNode treeStart a h (m a))
    (hahead : Ahead keep m (code ++ bits) h) (hbits : bits ≠ [])
    (hsymbol : Collects holds cpu symbol s P Q) (hlen : 0 < h.len) (hP : P h.collector m')
    (hkept : ∀ c m', P c m' ∨ Q c m' → ∀ a, keep a → region a ∧ m' a = m a) : ∃ h' m'',
    Advances (Looks holds) (fun h : Huffman => 0 < h.len)
        (huffmanBit bus p symbol treeStart rootNode) code.length h (cpu, m') h' (cpu, m'') ∧
      AtRoot keep m rootNode bits h' ∧ Q h'.collector m'' := by
  induction t generalizing a h code with
  | leaf s => exact Bool.noConfusion hinner
  | node left right ihl ihr =>
    obtain ⟨b, rest, rfl, hrest⟩ := CodeTree.at?_node_eq_some hcode
    have hchild := htree.child b
    cases hleaf : CodeTree.child left right b with
    | leaf s' =>
      rw [hleaf] at hrest
      obtain ⟨rfl, rfl⟩ := CodeTree.at?_leaf_eq_some hrest
      obtain ⟨h', m'', hround, hroot, hQ⟩ :=
        leads_huffmanBit_leaf ram hodd htree hat hahead hbits hleaf hsymbol hP hkept
      exact ⟨h', m'', hround.advances hlen, hroot, hQ⟩
    | node left' right' =>
      have hfalse : (CodeTree.child left right b).isLeaf = false := by
        rw [hleaf]
        rfl
      obtain ⟨h', hround, hat', hahead', hcollector⟩ := leads_huffmanBit_inner ram
        (hkept _ _ (.inl hP)) hodd htree hat hahead (List.append_ne_nil_of_right_ne_nil rest hbits)
        rootNode hfalse
      have hlen' : 0 < h'.len := by
        have hsame : h'.len = h.len := congrArg Collector.len hcollector
        rwa [hsame]
      have hP' : P h'.collector m' := hcollector.symm ▸ hP
      have hgo : ∃ h'' m'', Advances (Looks holds) (fun h : Huffman => 0 < h.len)
          (huffmanBit bus p symbol treeStart rootNode) rest.length h' (cpu, m') h'' (cpu, m'') ∧
          AtRoot keep m rootNode bits h'' ∧ Q h''.collector m'' := by
        cases b with
        | false => exact ihl hchild hfalse hrest hat' hahead' hlen' hP'
        | true => exact ihr hchild hfalse hrest hat' hahead' hlen' hP'
      obtain ⟨h'', m'', hwalk, hroot, hQ⟩ := hgo
      refine ⟨h'', m'', ?_, hroot, hQ⟩
      rw [List.length_cons, Nat.add_comm]
      refine Advances.trans ?_ hwalk
      exact hround.advances hlen

end Rounds

end Desmume.Bios
