import Angstrom.Contract.BundleDecoding

/-!
# The contract reads back the bundle the node encodes

The node sends `AngstromBundle::pade_encode` of its bundle as the payload of `execute`, and
`unlockCallback` decodes it with its own readers (`Contract.BundleDecoding`). This module proves
that the two agree: wherever the encoding of a bundle stands in the calldata, the reads of
`unlockCallback` return that bundle, with the reader at the end of each list and at the end of
the payload (`readBundle_pade`).

Two conditions come with it. Every field must fit the width it is encoded in (`Fits`); for all
fields but a standing order's `deadline`, a `u64` encoded in five bytes, that is the width of
its Rust type. And the amounts of a `MultiTick` rewards update are read by the reward loop, one
per tick it visits, then one for the current tick: the list must hold exactly that many
(`RewardsUpdate.ListsTicks`). A list of any other length makes the decoding revert
(`readRewards_pade_miscounted`), whatever else the bundle holds; `readBundle_multiTick_short`
is such a bundle.

The proofs go part by part: a lemma per read says what it returns on the encoding of a field
(`readUint_of_isAt` and its relatives), one per item type chains them, and the list loops are
the rules of `Lib.Pade`.
-/

namespace Angstrom.Refinement

open Contract Payload Bytes

/-! ## Fields -/

theorem toAddress_val (a : Address) : toAddress a.val = a := Fin.ofNat_val_eq_self a

theorem lt_256_pow {v n : Nat} (h : v < 2 ^ (8 * n)) : v < 256 ^ n := by
  rwa [Nat.pow_mul] at h

theorem readUint_pade {cd : Calldata} {r n v : Nat} (hn : n ≤ 32) (hv : v < 2 ^ (8 * n))
    (hat : IsAt cd r (Pade.uint n v)) : readUint n cd r = (r + (Pade.uint n v).length, v) := by
  rw [Pade.length_uint]
  exact readUint_of_isAt hn (lt_256_pow hv) hat

theorem readAddr_pade {cd : Calldata} {r : Nat} {a : Address}
    (hat : IsAt cd r (Pade.uint 20 a.val)) :
    readAddr cd r = (r + (Pade.uint 20 a.val).length, a.val) :=
  readUint_pade (n := 20) (by decide) a.isLt hat

/-! ## Assets and pairs -/

theorem AssetLib.read_pade {cd : Calldata} {self : Nat} {a : Asset} (hfits : a.Fits)
    (hat : IsAt cd self a.pade) : AssetLib.read cd self = a := by
  obtain ⟨hsave, htake, hsettle⟩ := hfits
  simp only [Asset.pade, List.append_assoc, isAt_append, Pade.length_uint, Nat.add_assoc,
    Nat.reduceAdd] at hat
  obtain ⟨haddr, hsave', htake', hsettle'⟩ := hat
  have raddr := readAddr_pade haddr
  have rsave := readUint_pade (n := 16) (by decide) hsave hsave'
  have rtake := readUint_pade (n := 16) (by decide) htake htake'
  have rsettle := readUint_pade (n := 16) (by decide) hsettle hsettle'
  simp only [AssetLib.read, AssetLib.ADDR_OFFSET, AssetLib.SAVE_OFFSET, AssetLib.TAKE_OFFSET,
    AssetLib.SETTLE_OFFSET, readU128, readAddr, Nat.add_zero] at raddr rsave rtake rsettle ⊢
  rw [raddr, rsave, rtake, rsettle, toAddress_val]

theorem readU24End_list {cd : Calldata} {r : Nat} {items : List (List UInt8)}
    (hfits : Pade.ListFits items) (hat : IsAt cd r (Pade.list items)) :
    readU24End cd r = (r + 3, r + 3 + items.flatten.length) := by
  rw [Pade.list, isAt_append] at hat
  exact readU24End_of_isAt hfits hat.1

theorem length_list (items : List (List UInt8)) :
    (Pade.list items).length = 3 + items.flatten.length := by
  simp [Pade.list, Pade.LIST_MAX_LENGTH_BYTES]

theorem AssetLib.readAssets_pade {cd : Calldata} {reader : Nat} {assets : List Asset}
    (hfits : ∀ a ∈ assets, a.Fits) (hlen : Pade.ListFits (assets.map Asset.pade))
    (hat : IsAt cd reader (Pade.list (assets.map Asset.pade))) :
    AssetLib.readAssets cd reader = (reader + (Pade.list (assets.map Asset.pade)).length, assets) := by
  have hend := readU24End_list hlen hat
  have hbytes := Pade.length_flatten_map Asset.length_pade assets
  rw [Pade.list, isAt_append, toBE_length] at hat
  have hcount : (reader + 3 + (assets.map Asset.pade).flatten.length - (reader + 3)) /
      AssetLib.ASSET_CD_BYTES = assets.length := by
    rw [hbytes, AssetLib.ASSET_CD_BYTES]
    omega
  simp only [AssetLib.readAssets, hend]
  rw [hcount, length_list, ← Nat.add_assoc]
  congr 1
  exact Pade.map_range_eq Asset.length_pade (fun _ _ hfits hat => AssetLib.read_pade hfits hat)
    assets hfits hat.2

theorem PairLib.readPair_pade {cd : Calldata} {r : Nat} {p : Payload.Pair} (hfits : p.Fits)
    (hat : IsAt cd r p.pade) : PairLib.readPair cd r = (r + p.pade.length, p) := by
  obtain ⟨hi0, hi1, hsi, hprice⟩ := hfits
  simp only [Payload.Pair.pade, List.append_assoc, isAt_append, Pade.length_uint, Nat.add_assoc,
    Nat.reduceAdd] at hat
  obtain ⟨h0, h1, hsi', hprice'⟩ := hat
  have hindices : readU32 cd r = (r + 4, p.index0 * 2 ^ 16 + p.index1) := by
    have hwin : window cd r 4 = toBE 2 p.index0 ++ toBE 2 p.index1 := by
      rw [show 4 = 2 + 2 from rfl, window_add]
      have w0 := window_of_isAt h0
      have w1 := window_of_isAt h1
      simp only [Pade.length_uint] at w0 w1
      rw [w0, w1]
      rfl
    rw [readU32, readUint_val cd r (by decide), hwin, ofBE_append, toBE_length,
      ofBE_toBE_of_lt (lt_256_pow (n := 2) hi0), ofBE_toBE_of_lt (lt_256_pow (n := 2) hi1)]
    rfl
  have hsi'' := readUint_pade (n := 2) (by decide) hsi hsi'
  have hprice'' := readUint_pade (n := 32) (by decide) hprice hprice'
  simp only [Pade.length_uint] at hsi'' hprice''
  simp only [PairLib.readPair, hindices, readU16, readU256, Nat.add_assoc, Nat.reduceAdd, hsi'',
    hprice'', PairLib.shiftRight_indexA hi1, PairLib.and_indexB hi1, Payload.Pair.length_pade]

theorem PairLib.readPairs_pade {cd : Calldata} {reader : Nat} {pairs : List Payload.Pair}
    (hfits : ∀ p ∈ pairs, p.Fits) (hlen : Pade.ListFits (pairs.map Payload.Pair.pade))
    (hat : IsAt cd reader (Pade.list (pairs.map Payload.Pair.pade))) :
    PairLib.readPairs cd reader =
      (reader + (Pade.list (pairs.map Payload.Pair.pade)).length, pairs) := by
  have hend := readU24End_list hlen hat
  have hbytes := Pade.length_flatten_map Payload.Pair.length_pade pairs
  rw [Pade.list, isAt_append, toBE_length, Pade.LIST_MAX_LENGTH_BYTES] at hat
  have hcount : (reader + 3 + (pairs.map Payload.Pair.pade).flatten.length - (reader + 3)) /
      PairLib.PAIR_CD_BYTES = pairs.length := by
    rw [hbytes, PairLib.PAIR_CD_BYTES]
    omega
  simp only [PairLib.readPairs, hend]
  rw [hcount, length_list, ← Nat.add_assoc,
    Pade.readCount_eq (PairLib.readPair cd) (fun _ _ hfits hat => PairLib.readPair_pade hfits hat)
      pairs hfits hat.2]

/-! ## Pool updates -/

theorem requireAtEndOf_of_eq {self stop : CalldataReader} (h : self = stop) :
    requireAtEndOf self stop = .ok () := by
  simp [requireAtEndOf, h]

theorem readI24_pade {cd : Calldata} {r : Nat} {t : Int} (hlo : -2 ^ 23 ≤ t) (hhi : t < 2 ^ 23)
    (hat : IsAt cd r (Pade.int 3 t)) : readI24 cd r = (r + 3, t) := by
  have hhalf : ((256 ^ 3 / 2 : Nat) : Int) = 2 ^ 23 := by norm_num
  have hlt : (t % ((256 ^ 3 : Nat) : Int)).toNat < 256 ^ 3 := by
    rw [Int.toNat_lt (Int.emod_nonneg _ (by decide))]
    exact Int.emod_lt_of_pos _ (by decide)
  rw [readI24, calldataload_div_u24 hlt hat, toSigned_emod (by decide) (by rw [hhalf]; omega)
    (by rw [hhalf]; exact hhi)]

theorem PoolUpdates.readRewards_pade {cd : Calldata} {r crossed : Nat} {u : RewardsUpdate}
    (hfits : u.Fits) (hticks : u.ListsTicks crossed) (hat : IsAt cd r u.pade) :
    PoolUpdates.readRewards crossed cd u.isCurrentOnly r = .ok (r + u.pade.length, u) := by
  cases u with
  | currentOnly amount expectedLiquidity =>
    obtain ⟨hamount, hliq⟩ := hfits
    simp only [RewardsUpdate.pade, isAt_append, Pade.length_uint] at hat
    have r1 := readUint_pade (n := 16) (by decide) hamount hat.1
    have r2 := readUint_pade (n := 16) (by decide) hliq hat.2
    simp only [Pade.length_uint] at r1 r2
    simp only [PoolUpdates.readRewards, RewardsUpdate.isCurrentOnly, if_true, readU128, r1, r2,
      Checked.pure_eq_ok, RewardsUpdate.pade, List.length_append, Pade.length_uint, Nat.add_assoc]
  | multiTick startTick startLiquidity quantities rewardChecksum =>
    obtain ⟨htlo, hthi, hliq, hqs, hqlen, hcs⟩ := hfits
    simp only [RewardsUpdate.ListsTicks] at hticks
    obtain ⟨init, last, rfl⟩ : ∃ init last, quantities = init ++ [last] :=
      ⟨quantities.dropLast, quantities.getLast (List.ne_nil_of_length_pos (by omega)),
        (List.dropLast_append_getLast _).symm⟩
    have hinit : init.length = crossed + 1 := by
      simp only [List.length_append, List.length_singleton] at hticks
      omega
    simp only [Pade.ListFits, List.map_append, List.map_cons, List.map_nil, List.flatten_append,
      List.flatten_cons, List.flatten_nil, List.append_nil, List.length_append, Pade.length_uint,
      Pade.LIST_MAX_LENGTH_BYTES] at hqlen
    simp only [RewardsUpdate.pade, Pade.list, List.map_append, List.map_cons, List.map_nil,
      List.flatten_append, List.flatten_cons, List.flatten_nil, List.append_nil, List.append_assoc,
      isAt_append, List.length_append, Pade.length_uint, Pade.length_int, toBE_length,
      Pade.LIST_MAX_LENGTH_BYTES] at hat
    obtain ⟨htick, hliq', hlen, hinit', hlast, hcs'⟩ := hat
    have r1 := readI24_pade htlo hthi htick
    have r2 := readUint_pade (n := 16) (by decide) hliq hliq'
    have r3 := readU24End_of_isAt hqlen hlen
    have r4 : Pade.readCount (readU128 cd) (crossed + 1) (r + 3 + 16 + 3) =
        (r + 3 + 16 + 3 + (init.map (Pade.uint 16)).flatten.length, init) := by
      rw [← hinit]
      exact Pade.readCount_eq (readU128 cd)
        (fun _ x hx hat => readUint_pade (n := 16) (by decide) hx hat) init
        (fun x hx => hqs x (List.mem_append_left _ hx)) hinit'
    have r5 := readUint_pade (n := 16) (by decide) (hqs last (by simp)) hlast
    have r6 := readUint_pade (n := 20) (by decide) hcs hcs'
    simp only [Pade.length_uint] at r2 r5 r6
    have hend : r + 3 + 16 + 3 + (init.map (Pade.uint 16)).flatten.length + 16 =
        r + 3 + 16 + 3 + ((init.map (Pade.uint 16)).flatten.length + 16) := by omega
    simp only [PoolUpdates.readRewards, RewardsUpdate.isCurrentOnly, Bool.false_eq_true, if_false,
      r1, readU128, r2, r3, r4, r5, requireAtEndOf_of_eq hend, Checked.ok_bind, readU160, r6,
      Checked.pure_eq_ok, Prod.mk.injEq, and_true]
    simp only [RewardsUpdate.pade, Pade.list, List.length_append, Pade.length_uint,
      Pade.length_int, toBE_length, List.map_append, List.map_cons, List.map_nil,
      List.flatten_append, List.flatten_cons, List.flatten_nil, List.append_nil,
      Pade.LIST_MAX_LENGTH_BYTES]
    change (_ : Nat) = _
    omega

theorem PoolUpdates.readPoolUpdate_pade {cd : Calldata} {r crossed : Nat} {u : PoolUpdate}
    (hfits : u.Fits) (hticks : u.rewardsUpdate.ListsTicks crossed) (hat : IsAt cd r u.pade) :
    PoolUpdates.readPoolUpdate crossed cd r = .ok (r + u.pade.length, u) := by
  obtain ⟨hpair, hswap, hrewards⟩ := hfits
  have hmap := Pade.variantMap_eq_toBE
    (show 0 < [u.zeroForOne, u.rewardsUpdate.isCurrentOnly].length by simp) (by simp)
  simp only [PoolUpdate.pade, hmap, List.append_assoc, isAt_append, toBE_length,
    Pade.length_uint, Nat.add_assoc, Nat.reduceAdd] at hat
  obtain ⟨hv, hp, hs, hr⟩ := hat
  have r0 := readUint_of_isAt (by decide) (lt_of_lt_of_le (BitPack.pack_lt _) (by simp)) hv
  have r1 := readUint_pade (n := 2) (by decide) hpair hp
  have r2 := readUint_pade (n := 16) (by decide) hswap hs
  have r3 := PoolUpdates.readRewards_pade hrewards hticks hr
  simp only [Pade.length_uint] at r1 r2
  have hz : PoolUpdateVariantMap.zeroForOne
      ⟨BitPack.pack [u.zeroForOne, u.rewardsUpdate.isCurrentOnly]⟩ = u.zeroForOne :=
    BitPack.and_two_pow_pack _ 0
  have hc : PoolUpdateVariantMap.currentOnly
      ⟨BitPack.pack [u.zeroForOne, u.rewardsUpdate.isCurrentOnly]⟩ = u.rewardsUpdate.isCurrentOnly :=
    BitPack.and_two_pow_pack _ 1
  simp only [PoolUpdates.readPoolUpdate, readU8, readU16, readU128, r0, r1, r2, hc, r3, hz,
    Checked.ok_bind, Checked.pure_eq_ok]
  refine Prod.ext ?_ rfl
  dsimp only
  simp only [PoolUpdate.pade, hmap, List.length_append, toBE_length, Pade.length_uint]
  change (_ : Nat) = _
  omega

/-- The pool updates are read back when the reward loop of the `k`-th update crosses `crossed k`
initialized ticks and its amounts are listed for those ticks. -/
theorem PoolUpdates.readPoolUpdates_pade {cd : Calldata} {reader : Nat} {crossed : Nat → Nat}
    {us : List PoolUpdate} (hfits : ∀ u ∈ us, u.Fits)
    (hticks : ∀ i (hi : i < us.length), (us.get ⟨i, hi⟩).rewardsUpdate.ListsTicks (crossed i))
    (hlen : Pade.ListFits (us.map PoolUpdate.pade))
    (hat : IsAt cd reader (Pade.list (us.map PoolUpdate.pade))) :
    PoolUpdates.readPoolUpdates crossed cd reader =
      .ok (reader + (Pade.list (us.map PoolUpdate.pade)).length, us) := by
  have hend := readU24End_list hlen hat
  have hcount := Pade.length_le_length_flatten PoolUpdate.pade_ne_nil us
  rw [Pade.list, isAt_append, toBE_length] at hat
  simp only [PoolUpdates.readPoolUpdates, hend]
  rw [length_list, ← Nat.add_assoc]
  exact Pade.readUntil_eq _ _ _ (P := fun k u => u.Fits ∧ u.rewardsUpdate.ListsTicks (crossed k))
    (fun _ _ _ hu hat => PoolUpdates.readPoolUpdate_pade hu.1 hu.2 hat) PoolUpdate.pade_ne_nil us
    (by omega) (fun i hi => ⟨hfits _ (List.get_mem _ _), by simpa using hticks i hi⟩) hat.2 rfl

/-- The reward loop reads one amount per tick it visits and one for the current tick, wherever
the list ends: a `MultiTick` update that lists any other number of amounts leaves the reader off
the list's end, and the decoding reverts. -/
theorem PoolUpdates.readRewards_pade_miscounted {cd : Calldata} {r crossed : Nat}
    {startTick : Int} {startLiquidity : Nat} {quantities : List Nat} {rewardChecksum : Nat}
    (hqlen : Pade.ListFits (quantities.map (Pade.uint 16)))
    (hcount : quantities.length ≠ crossed + 2)
    (hat : IsAt cd r
      (RewardsUpdate.multiTick startTick startLiquidity quantities rewardChecksum).pade) :
    PoolUpdates.readRewards crossed cd false r = .error .readerNotAtEnd := by
  simp only [RewardsUpdate.pade, Pade.list, List.append_assoc, isAt_append, Pade.length_int,
    Pade.length_uint, toBE_length, Pade.LIST_MAX_LENGTH_BYTES] at hat
  obtain ⟨-, -, hlen, -⟩ := hat
  have hend := readU24End_of_isAt hqlen hlen
  have hflat : (quantities.map (Pade.uint 16)).flatten.length = 16 * quantities.length :=
    Pade.length_flatten_map (fun _ => Pade.length_uint 16 _) quantities
  have hcnt := Pade.readCount_fst (readU128 cd) (k := 16) (fun _ => rfl) (crossed + 1)
    (r + 3 + 16 + 3)
  simp only [PoolUpdates.readRewards, Bool.false_eq_true, if_false, readI24, readU128, readUint,
    hend]
  rw [hcnt, hflat]
  have hne : r + 3 + 16 + 3 + (crossed + 1) * 16 + 16 ≠ r + 3 + 16 + 3 + 16 * quantities.length := by
    omega
  simp only [requireAtEndOf, ne_eq, hne, not_false_eq_true, if_true, Checked.throw_bind]
  rfl

/-! ## Orders -/

theorem readRecipient_pade {cd : Calldata} {r : Nat} {recipient : Option Address}
    (hat : IsAt cd r (Pade.option (fun a : Address => Pade.uint 20 a.val) recipient)) :
    readRecipient cd recipient.isSome r =
      (r + (Pade.option (fun a : Address => Pade.uint 20 a.val) recipient).length, recipient) := by
  cases recipient with
  | none => simp [readRecipient]
  | some a =>
    simp only [Pade.option_some] at hat
    simp only [readRecipient, Option.isSome_some, if_true, readAddr_pade hat, toAddress_val,
      Pade.option_some]

theorem SignatureLib.readSignature_pade {cd : Calldata} {r : Nat} {sig : Signature}
    (hfits : sig.Fits) (hat : IsAt cd r sig.pade) :
    SignatureLib.readSignature cd sig.isEcdsa r = (r + sig.pade.length, sig) := by
  cases sig with
  | contract signer signature =>
    simp only [Signature.pade, Pade.bytes_eq, isAt_append, Pade.length_uint] at hat
    have hsigner := readAddr_pade hat.1
    have hbytes := readBytes_of_isAt hfits (isAt_append.2 hat.2)
    simp only [SignatureLib.readSignature, Signature.isEcdsa, Bool.false_eq_true, if_false,
      SignatureLib.readERC1271, hsigner, Pade.length_uint, hbytes, toAddress_val, Signature.pade,
      Pade.bytes_eq, List.length_append, toBE_length, Pade.LIST_MAX_LENGTH_BYTES, Prod.mk.injEq,
      and_true]
    change (_ : Nat) = _
    omega
  | ecdsa v rr ss =>
    obtain ⟨hv, hr, hs⟩ := hfits
    simp only [Signature.pade, List.append_assoc, isAt_append, Pade.length_uint] at hat
    obtain ⟨hv', hr', hs'⟩ := hat
    have wv := window_of_isAt hv'
    have wr := window_of_isAt hr'
    have ws := window_of_isAt hs'
    simp only [Pade.uint, toBE_length] at wv wr ws
    simp only [SignatureLib.readSignature, Signature.isEcdsa, if_true, SignatureLib.readEcdsa,
      Nat.reduceAdd, wv, wr, ws, ofBE_toBE_of_lt (lt_256_pow (n := 1) hv),
      ofBE_toBE_of_lt (lt_256_pow (n := 32) hr), ofBE_toBE_of_lt (lt_256_pow (n := 32) hs),
      Signature.pade, List.length_append, Pade.length_uint]

theorem readToBOrder_pade {cd : Calldata} {r : Nat} {t : TopOfBlockOrder} (hfits : t.Fits)
    (hat : IsAt cd r t.pade) : readToBOrder cd r = (r + t.pade.length, t) := by
  obtain ⟨hin, hout, hmax, hused, hpair, hsig⟩ := hfits
  have hmap := Pade.variantMap_eq_toBE
    (show 0 < [t.useInternal, t.zeroFor1, t.recipient.isSome, t.signature.isEcdsa].length by simp)
    (by simp)
  simp only [TopOfBlockOrder.pade, hmap, List.append_assoc, isAt_append, toBE_length,
    Pade.length_uint, Nat.add_assoc, Nat.reduceAdd] at hat
  obtain ⟨hv, hin', hout', hmax', hused', hpair', hrec, hsig'⟩ := hat
  have r0 := readUint_of_isAt (by decide) (lt_of_lt_of_le (BitPack.pack_lt _) (by simp)) hv
  have r1 := readUint_pade (n := 16) (by decide) hin hin'
  have r2 := readUint_pade (n := 16) (by decide) hout hout'
  have r3 := readUint_pade (n := 16) (by decide) hmax hmax'
  have r4 := readUint_pade (n := 16) (by decide) hused hused'
  have r5 := readUint_pade (n := 2) (by decide) hpair hpair'
  have r6 := readRecipient_pade hrec
  have r7 := SignatureLib.readSignature_pade hsig hsig'
  simp only [Pade.length_uint, Nat.add_assoc, Nat.reduceAdd] at r1 r2 r3 r4 r5 r6
  have hbit (i : Nat) := BitPack.and_two_pow_pack
    [t.useInternal, t.zeroFor1, t.recipient.isSome, t.signature.isEcdsa] i
  have hu : ToBOrderVariantMap.useInternal ⟨BitPack.pack [t.useInternal, t.zeroFor1,
      t.recipient.isSome, t.signature.isEcdsa]⟩ = t.useInternal := hbit 0
  have hz : ToBOrderVariantMap.zeroForOne ⟨BitPack.pack [t.useInternal, t.zeroFor1,
      t.recipient.isSome, t.signature.isEcdsa]⟩ = t.zeroFor1 := hbit 1
  have hrs : ToBOrderVariantMap.recipientIsSome ⟨BitPack.pack [t.useInternal, t.zeroFor1,
      t.recipient.isSome, t.signature.isEcdsa]⟩ = t.recipient.isSome := hbit 2
  have he : ToBOrderVariantMap.isEcdsa ⟨BitPack.pack [t.useInternal, t.zeroFor1,
      t.recipient.isSome, t.signature.isEcdsa]⟩ = t.signature.isEcdsa := hbit 3
  simp only [readToBOrder, readU8, readU128, readU16, r0, r1, r2, r3, r4, r5, hrs, r6, he, r7,
    hu, hz]
  refine Prod.ext ?_ rfl
  dsimp only
  simp only [TopOfBlockOrder.pade, hmap, List.length_append, toBE_length, Pade.length_uint]
  change (_ : Nat) = _
  omega

theorem readToBOrders_pade {cd : Calldata} {reader : Nat} {ts : List TopOfBlockOrder}
    (hfits : ∀ t ∈ ts, t.Fits) (hlen : Pade.ListFits (ts.map TopOfBlockOrder.pade))
    (hat : IsAt cd reader (Pade.list (ts.map TopOfBlockOrder.pade))) :
    readToBOrders cd reader = .ok (reader + (Pade.list (ts.map TopOfBlockOrder.pade)).length, ts) := by
  have hend := readU24End_list hlen hat
  have hcount := Pade.length_le_length_flatten TopOfBlockOrder.pade_ne_nil ts
  rw [Pade.list, isAt_append, toBE_length] at hat
  simp only [readToBOrders, hend]
  rw [length_list, ← Nat.add_assoc]
  exact Pade.readUntil_eq _ _ _ (P := fun _ t => t.Fits)
    (fun _ _ _ ht hat => by rw [readToBOrder_pade ht hat]; rfl) TopOfBlockOrder.pade_ne_nil ts
    (by omega) (fun _ _ => hfits _ (List.get_mem _ _)) hat.2 rfl

theorem HookBufferLib.readHook_pade {cd : Calldata} {r : Nat} {hookData : Option (List UInt8)}
    (hfits : ∀ bs ∈ hookData, bs.length < 256 ^ 3)
    (hat : IsAt cd r (Pade.option Pade.bytes hookData)) :
    HookBufferLib.readHook cd (!hookData.isSome) r =
      (r + (Pade.option Pade.bytes hookData).length, hookData) := by
  cases hookData with
  | none => simp [HookBufferLib.readHook]
  | some bs =>
    simp only [Pade.option_some, Pade.bytes_eq] at hat
    have hread := readBytes_of_isAt (hfits bs rfl) hat
    simp only [HookBufferLib.readHook, Option.isSome_some, Bool.not_true, Bool.false_eq_true,
      if_false, hread, Pade.option_some, Pade.bytes_eq, List.length_append, toBE_length,
      Pade.LIST_MAX_LENGTH_BYTES, Nat.add_assoc]

theorem UserOrderBufferLib.readOrderValidation_pade {cd : Calldata} {r : Nat}
    {variant : UserOrderVariantMap} {sv : Option StandingValidation}
    (hstanding : variant.isStanding = sv.isSome) (hfits : ∀ x ∈ sv, x.Fits)
    (hat : IsAt cd r (Pade.option StandingValidation.pade sv)) :
    UserOrderBufferLib.readOrderValidation cd variant r =
      (r + (Pade.option StandingValidation.pade sv).length, sv) := by
  cases sv with
  | none =>
    simp only [Option.isSome_none] at hstanding
    simp [UserOrderBufferLib.readOrderValidation, hstanding]
  | some x =>
    obtain ⟨hnonce, hdeadline⟩ := hfits x rfl
    simp only [Option.isSome_some] at hstanding
    simp only [Pade.option_some, StandingValidation.pade, isAt_append, Pade.length_uint] at hat
    have r1 := readUint_pade (n := 8) (by decide) hnonce hat.1
    have r2 := readUint_pade (n := 5) (by decide) hdeadline hat.2
    simp only [Pade.length_uint] at r1 r2
    simp only [UserOrderBufferLib.readOrderValidation, hstanding, if_true,
      UserOrderBufferLib.NONCE_BYTES, UserOrderBufferLib.DEADLINE_BYTES, r1, r2,
      Pade.option_some, StandingValidation.pade, List.length_append, Pade.length_uint,
      Nat.add_assoc]

theorem UserOrderBufferLib.readQuantities_pade {cd : Calldata} {r : Nat} {uo : UserOrder}
    (hq : uo.orderQuantities.Fits) (hmax : uo.maxExtraFeeAsset0 < 2 ^ 128)
    (hfee : uo.extraFeeAsset0 < 2 ^ 128) (hat : IsAt cd r uo.quantitySection) :
    UserOrderBufferLib.readQuantities cd uo.variantMap r =
      (r + uo.quantitySection.length, uo.orderQuantities, uo.maxExtraFeeAsset0,
        uo.extraFeeAsset0) := by
  have read (off : Nat) (v : Nat) (hv : v < 2 ^ 128) (h : IsAt cd off (toBE 16 v)) :=
    readUint_of_isAt (by decide) (lt_256_pow (n := 16) hv) h
  unfold UserOrderBufferLib.readQuantities
  rw [UserOrder.variantMap_quantitiesPartial]
  cases hoq : uo.orderQuantities with
  | exact q =>
    have hq' : q < 2 ^ 128 := hq q (by simp [hoq, OrderQuantities.fields])
    simp only [UserOrder.quantitySection, hoq, OrderQuantities.fields, List.cons_append,
      List.nil_append, List.map_cons, List.map_nil, List.flatten_cons, List.flatten_nil,
      List.append_nil, isAt_append, toBE_length] at hat
    obtain ⟨h0, h1, h2⟩ := hat
    simp only [OrderQuantities.isRanged, Bool.false_eq_true, if_false, readU128, read r q hq' h0,
      read _ _ hmax h1, read _ _ hfee h2, UserOrder.quantitySection, hoq, OrderQuantities.fields,
      List.cons_append, List.nil_append, List.map_cons, List.map_nil, List.flatten_cons,
      List.flatten_nil, List.append_nil, List.length_append, toBE_length, Nat.add_assoc]
  | ranged lo hi filled =>
    have hlo : lo < 2 ^ 128 := hq lo (by simp [hoq, OrderQuantities.fields])
    have hhi : hi < 2 ^ 128 := hq hi (by simp [hoq, OrderQuantities.fields])
    have hfilled : filled < 2 ^ 128 := hq filled (by simp [hoq, OrderQuantities.fields])
    simp only [UserOrder.quantitySection, hoq, OrderQuantities.fields, List.cons_append,
      List.nil_append, List.map_cons, List.map_nil, List.flatten_cons, List.flatten_nil,
      List.append_nil, isAt_append, toBE_length] at hat
    obtain ⟨h0, h1, h2, h3, h4⟩ := hat
    simp only [OrderQuantities.isRanged, if_true, readU128, read r lo hlo h0, read _ _ hhi h1,
      read _ _ hfilled h2, read _ _ hmax h3, read _ _ hfee h4, UserOrder.quantitySection, hoq,
      OrderQuantities.fields, List.cons_append, List.nil_append, List.map_cons, List.map_nil,
      List.flatten_cons, List.flatten_nil, List.append_nil, List.length_append, toBE_length,
      Nat.add_assoc]

theorem readUserOrder_pade {cd : Calldata} {r : Nat} {uo : UserOrder} (hfits : uo.Fits)
    (hat : IsAt cd r uo.pade) : readUserOrder cd r = (r + uo.pade.length, uo) := by
  have hmap := Pade.variantMap_eq_toBE (show 0 < uo.variantFlags.length by simp [UserOrder.variantFlags])
    (by simp [UserOrder.variantFlags])
  simp only [UserOrder.pade, hmap, List.append_assoc, isAt_append, toBE_length,
    Pade.length_uint, Nat.add_assoc, Nat.reduceAdd] at hat
  obtain ⟨hv, href, hpair, hprice, hrec, hhook, hsv, hqs, hsig⟩ := hat
  have r0 := readUint_of_isAt (by decide)
    (lt_of_lt_of_le (BitPack.pack_lt _) (by simp [UserOrder.variantFlags])) hv
  have r1 := readUint_pade (n := 4) (by decide) hfits.refId href
  have r2 := readUint_pade (n := 2) (by decide) hfits.pairIndex hpair
  have r3 := readUint_pade (n := 32) (by decide) hfits.minPrice hprice
  have r4 := readRecipient_pade hrec
  have r5 := HookBufferLib.readHook_pade hfits.hookData hhook
  have r6 := UserOrderBufferLib.readOrderValidation_pade (UserOrder.variantMap_isStanding uo)
    hfits.standingValidation hsv
  have r7 := UserOrderBufferLib.readQuantities_pade hfits.orderQuantities hfits.maxExtraFeeAsset0
    hfits.extraFeeAsset0 hqs
  have r8 := SignatureLib.readSignature_pade hfits.signature hsig
  simp only [Pade.length_uint, Nat.add_assoc, Nat.reduceAdd] at r1 r2 r3 r4 r5 r6 r7
  have hvm : (⟨BitPack.pack uo.variantFlags⟩ : UserOrderVariantMap) = uo.variantMap := rfl
  simp only [readUserOrder, readU8, r0, hvm, UserOrderBufferLib.REF_ID_BYTES, r1, readU16, r2,
    readU256, r3, UserOrder.variantMap_recipientIsSome, r4, UserOrder.variantMap_noHook, r5, r6,
    r7, UserOrder.variantMap_isEcdsa, r8, UserOrder.variantMap_useInternal,
    UserOrder.variantMap_zeroForOne, UserOrder.variantMap_exactIn]
  refine Prod.ext ?_ rfl
  dsimp only
  simp only [UserOrder.pade, hmap, List.length_append, toBE_length, Pade.length_uint]
  change (_ : Nat) = _
  omega

theorem readUserOrders_pade {cd : Calldata} {reader : Nat} {uos : List UserOrder}
    (hfits : ∀ uo ∈ uos, uo.Fits) (hlen : Pade.ListFits (uos.map UserOrder.pade))
    (hat : IsAt cd reader (Pade.list (uos.map UserOrder.pade))) :
    readUserOrders cd reader = .ok (reader + (Pade.list (uos.map UserOrder.pade)).length, uos) := by
  have hend := readU24End_list hlen hat
  have hcount := Pade.length_le_length_flatten UserOrder.pade_ne_nil uos
  rw [Pade.list, isAt_append, toBE_length] at hat
  simp only [readUserOrders, hend]
  rw [length_list, ← Nat.add_assoc]
  exact Pade.readUntil_eq _ _ _ (P := fun _ uo => uo.Fits)
    (fun _ _ _ huo hat => by rw [readUserOrder_pade huo hat]; rfl) UserOrder.pade_ne_nil uos
    (by omega) (fun _ _ => hfits _ (List.get_mem _ _)) hat.2 rfl

/-! ## The bundle -/

/-- `unlockCallback` reads back the bundle the node encodes, list by list, and ends at the end of
the payload, when every field fits its width and every `MultiTick` update lists one amount per
tick the contract's reward loop visits. -/
theorem readBundle_pade {crossed : Nat → Nat} {cd : Calldata} {offset : Nat}
    {b : AngstromBundle} (hfits : b.Fits)
    (hticks : ∀ i (hi : i < b.poolUpdates.length),
      (b.poolUpdates.get ⟨i, hi⟩).rewardsUpdate.ListsTicks (crossed i))
    (hat : IsAt cd offset b.pade) :
    readBundle crossed cd offset b.pade.length = .ok b := by
  simp only [AngstromBundle.pade, isAt_append, List.length_append, Nat.add_assoc] at hat
  obtain ⟨⟨⟨⟨hassets, hpairs⟩, hupdates⟩, htob⟩, huser⟩ := hat
  have r1 := AssetLib.readAssets_pade hfits.assets hfits.assetsLength hassets
  have r2 := PairLib.readPairs_pade hfits.pairs hfits.pairsLength hpairs
  have r3 := PoolUpdates.readPoolUpdates_pade hfits.poolUpdates hticks hfits.poolUpdatesLength
    hupdates
  have r4 := readToBOrders_pade hfits.topOfBlockOrders hfits.topOfBlockOrdersLength htob
  have r5 := readUserOrders_pade hfits.userOrders hfits.userOrdersLength huser
  simp only [Nat.add_assoc] at r2 r3 r4 r5
  simp only [readBundle, r1, r2, r3, Checked.ok_bind, r4, r5, AngstromBundle.pade,
    List.length_append, Nat.add_assoc, requireAtEndOf_of_eq, Checked.pure_eq_ok]

/-- A bundle with one of each kind of item: two assets and their pair, a `MultiTick` update of
a loop that visits no tick before the current one, a top-of-block order with an ECDSA signature,
and a standing exact-in user order with a hook and a contract signature. -/
def sampleBundle : AngstromBundle where
  assets := [⟨1, 0, 10, 0⟩, ⟨2, 0, 0, 10⟩]
  pairs := [⟨0, 1, 0, 10 ^ 27⟩]
  poolUpdates := [⟨false, 0, 5, .multiTick (-60) 1000 [1, 2] 7⟩]
  topOfBlockOrders := [⟨false, 10, 9, 1, 1, 0, true, none, .ecdsa 27 1 2⟩]
  userOrders :=
    [⟨0, false, 0, 10 ^ 27, none, some [1, 2], true, some ⟨3, 100⟩, .exact 5, 1, 1, true,
      .contract 4 [5]⟩]

theorem readBundle_pade_sampleBundle :
    readBundle (fun _ => 0) sampleBundle.pade 0 sampleBundle.pade.length = .ok sampleBundle :=
  readBundle_pade
    ⟨by simp [sampleBundle, Asset.Fits], by simp [sampleBundle, Payload.Pair.Fits],
      by simp [sampleBundle, PoolUpdate.Fits, RewardsUpdate.Fits]; decide,
      by simp [sampleBundle, TopOfBlockOrder.Fits, Signature.Fits],
      by simp only [sampleBundle, List.mem_singleton, forall_eq]
         exact ⟨by decide, by decide, by decide, by simp, by simp [StandingValidation.Fits],
          by simp [OrderQuantities.Fits, OrderQuantities.fields], by decide, by decide,
          by simp [Signature.Fits]⟩,
      by decide +kernel, by decide +kernel, by decide +kernel, by decide +kernel,
      by decide +kernel⟩
    (fun i hi => by
      simp only [sampleBundle, List.length_singleton, Nat.lt_one_iff] at hi
      subst hi
      rfl)
    (window_self _)

/-- The same bundle against a pool whose reward loop visits one initialized tick before the
current one: the `MultiTick` update lists two amounts where the loop reads three, and
`unlockCallback` reverts instead of reading the bundle back. -/
theorem readBundle_multiTick_short :
    readBundle (fun _ => 1) sampleBundle.pade 0 sampleBundle.pade.length =
      .error .readerNotAtEnd := by
  decide +kernel

end Angstrom.Refinement
