import ClambHook.RuleFeed.Normal

/-!
# Networks

A CIDR stands for a network: an address of a family and the number of its bits that count.  The
engine of the rules compares whole bytes and masks the next one; a feed masks the address, byte by
byte, before it is written down again.  Both mean that an address is in the network when it agrees
with it on the bits that count (`cidr_matching`).
-/

namespace ClambHook.RuleFeed

open CString Inet Rules

/-- Masking leaves the bits that count. -/
theorem addressBit_maskAddress {n i : Nat} (hi : i < n) (address : Bytes) :
    addressBit (maskAddress n address) i = addressBit address i := by
  induction address generalizing n i with
  | nil => rfl
  | cons byte address ih =>
    rw [maskAddress]
    rcases Nat.lt_or_ge i 8 with hlt | hge
    · have hsame : byte &&& leadingMask (min n 8) &&& leadingMask (min n 8) =
          byte &&& leadingMask (min n 8) := by
        rw [UInt8.and_assoc, UInt8.and_self]
      have hbit := (masked_eq_iff (min_le_right n 8)).1 hsame i (by omega)
      rw [addressBit, addressBit, Nat.div_eq_of_lt hlt, Nat.mod_eq_of_lt hlt]
      exact hbit
    · have hrest := ih (n := n - 8) (i := i - 8) (by omega)
      have hi' : i = 8 * ((i - 8) / 8 + 1) + (i - 8) % 8 := by omega
      rw [hi', addressBit_mul_add _ _ (by omega), addressBit_mul_add _ _ (by omega)]
      exact hrest

/-- An address is in a network of its family that a text of the list stands for. -/
def InNetworks (input : List Bytes) (family : Family) (address : Bytes) : Prop :=
  ∃ raw ∈ input, ∃ network n, CidrText (trim raw) family network n ∧ AgreeOn n network address

variable {family : Family} {host address : Bytes}

theorem isSome_matchCidrs_iff {input : List Bytes} {cidrs : List Cidr}
    (h : cidrListCompile input = .ok cidrs) (hhost : pton family host = some address) :
    (matchCidrs cidrs host).isSome = true ↔ InNetworks input family address := by
  have htext := addressText_of_pton hhost
  have hhas : HasAddress host family address := by
    rw [HasAddress, htext.stripBrackets, parseAddress_eq_some_iff]
    exact ⟨Nat.lt_of_le_of_lt htext.length (by decide), hhost⟩
  rw [isSome_matchCidrs (valid_of_cidrListCompile h)]
  constructor
  · rintro ⟨c, hc, address', hhas', hagree⟩
    obtain ⟨raw, hraw, hcompile⟩ := (mem_mapM_iff h).1 hc
    cases hhas.2.symm.trans hhas'.2
    exact ⟨raw, hraw, _, _, (cidrCompile_eq_ok_iff.1 hcompile).1, hagree⟩
  · rintro ⟨raw, hraw, network, n, hnetwork, hagree⟩
    have hcompile := cidrCompile_eq_ok_iff (c := ⟨family, network, n, _⟩).2 ⟨hnetwork, rfl⟩
    exact ⟨_, (mem_mapM_iff h).2 ⟨raw, hraw, hcompile⟩, address, hhas, hagree⟩

/-- **Networks**: matching is agreement on the prefix, for the texts of the rules and for the normal
forms of the texts of a feed. -/
theorem cidr_matching :
    (∀ (input : List Bytes) (cidrs : List Cidr), cidrListCompile input = .ok cidrs →
      ∀ (family : Family) (host address : Bytes), pton family host = some address →
        ((matchCidrs cidrs host).isSome = true ↔ InNetworks input family address)) ∧
      ∀ raw value : Bytes, normalizeCidr raw = some value → ∃ family network n cidrs,
        Network raw family network n ∧ cidrListCompile [value] = .ok cidrs ∧
          ∀ (family' : Family) (host address : Bytes), pton family' host = some address →
            ((matchCidrs cidrs host).isSome = true ↔
              family' = family ∧ AgreeOn n network address) := by
  refine ⟨fun input cidrs h family host address ↦ isSome_matchCidrs_iff h, fun raw value h ↦ ?_⟩
  obtain ⟨family, n, network, hnetwork, hn, hlength, rfl⟩ := normalizeCidr_eq_some h
  rw [← length_maskAddress n] at hlength
  have htext := cidrText_of_pton (pton_ntop hlength) hn
  have htrim := trim_eq_self htext.trimmed
  have hlist : cidrListCompile [_] = .ok [_] := mapM_eq_ok_iff.2 (congrArg ([·]) htext.compile)
  refine ⟨family, network, n, [_], hnetwork, hlist, fun family' host address hhost ↦ ?_⟩
  have hagree : AgreeOn n (maskAddress n network) address ↔ AgreeOn n network address :=
    forall₂_congr fun i hi ↦ by rw [addressBit_maskAddress hi]
  rw [isSome_matchCidrs_iff hlist hhost, ← hagree]
  constructor
  · rintro ⟨_, hmem, network', n', htext', hagree⟩
    cases List.mem_singleton.1 hmem
    -- a text compiles to one network
    rw [htrim] at htext'
    cases htext.compile.symm.trans htext'.compile
    exact ⟨rfl, hagree⟩
  · rintro ⟨rfl, hagree⟩
    exact ⟨_, List.mem_singleton_self _, _, n, by rwa [htrim], hagree⟩

end ClambHook.RuleFeed
