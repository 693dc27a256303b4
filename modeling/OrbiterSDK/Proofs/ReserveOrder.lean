import OrbiterSDK.Proofs.DexCalls

/-! Which reserve the quotes of the library take for which token. A pair keeps its reserves in
the order of the addresses of its tokens, and the library hands them on in that order. -/

namespace OrbiterSDK.Proofs.ReserveOrder
open Lib Atomic DEXV2 DexCalls DEXV2Library

/-- What a pair holds of one of its tokens. -/
def reserveOf (pair : DEXV2Pair) (token : Address) : Uint256 :=
  if token = pair.token0 then pair.reserve0.wide else pair.reserve1.wide

/-- The pair of two tokens, as the factory creates it. -/
structure Paired (world : World) (factory tokenA tokenB : Address) (pair : DEXV2Pair) : Prop where
  apart : tokenA ≠ tokenB
  registered : ∃ contract, world.at_ asFactory factory = some contract ∧
    world.at_ asPair (contract.getPair tokenA tokenB) = some pair
  token0 : pair.token0 = if tokenA < tokenB then tokenA else tokenB

/-- The tokens come in the order in which the pair keeps its reserves, or it does not matter. -/
def InOrder (pair : DEXV2Pair) (tokenA tokenB : Address) : Prop := tokenA < tokenB ∨ pair.reserve0 = pair.reserve1

variable {world after : World} {factory tokenA tokenB : Address} {pair : DEXV2Pair} {path : List Address}

theorem getReserves_yields (paired : Paired world factory tokenA tokenB pair) {reserves : Uint256 × Uint256} :
    Yields (getReserves factory tokenA tokenB) world reserves after ↔ reserves = pair.getReserves ∧ after = world := by
  obtain ⟨contract, isFactory, isPair⟩ := paired.registered
  rw [getReserves, yields_pairFor_bind isFactory, yields_known_bind isPair]
  constructor
  · intro done
    obtain ⟨rfl, rfl⟩ := pure_yields done
    exact ⟨rfl, rfl⟩
  · rintro ⟨rfl, rfl⟩
    rfl

theorem wide_injective {left right : Uint112} (same : left.wide = right.wide) : left = right := by
  apply BitVec.eq_of_toNat_eq
  rw [← Uint112.wide_toNat left, ← Uint112.wide_toNat right, same]

theorem reserves_own_iff (paired : Paired world factory tokenA tokenB pair) :
    pair.getReserves = (reserveOf pair tokenA, reserveOf pair tokenB) ↔ InOrder pair tokenA tokenB := by
  unfold InOrder DEXV2Pair.getReserves reserveOf
  rw [paired.token0]
  by_cases sorted : tokenA < tokenB
  · simp only [sorted, if_true, Ne.symm paired.apart, if_false, true_or]
  · simp only [sorted, if_false, paired.apart, if_true, false_or, Prod.mk.injEq]
    constructor
    · rintro ⟨same, _⟩
      exact wide_injective same
    · intro same
      rw [same]
      exact ⟨rfl, rfl⟩

/-- The two tokens of each step of a path. -/
def hops : List Address → List (Address × Address)
  | input :: output :: rest => (input, output) :: hops (output :: rest)
  | _ => []

/-- The tokens of a step have a pair, and it is of a kind. -/
def HopIs (kind : DEXV2Pair → Address → Address → Prop) (world : World) (factory : Address) (hop : Address × Address) : Prop :=
  ∃ pair, Paired world factory hop.1 hop.2 pair ∧ kind pair hop.1 hop.2

/-- The quote of a step is asked for with the reserves of its own tokens. -/
def OwnQuoted (world : World) (factory : Address) (hop : Address × Address) : Prop :=
  HopIs (fun pair tokenA tokenB => Yields (getReserves factory tokenA tokenB) world (reserveOf pair tokenA, reserveOf pair tokenB) world)
    world factory hop

/-- The amounts behind the first one if each step is quoted with the reserves of its own tokens. -/
inductive QuotedOut (world : World) (factory : Address) : Uint256 → List Address → List Uint256 → Prop where
  | last {amount token} : QuotedOut world factory amount [token] []
  | hop {amountIn amountOut tokenA tokenB pair rest amounts} (paired : Paired world factory tokenA tokenB pair)
      (quoted : getAmountOut amountIn (reserveOf pair tokenA) (reserveOf pair tokenB) = .ok amountOut)
      (later : QuotedOut world factory amountOut (tokenB :: rest) amounts) :
      QuotedOut world factory amountIn (tokenA :: tokenB :: rest) (amountOut :: amounts)

/-- The same from the last amount back. -/
inductive QuotedIn (world : World) (factory : Address) (amountOut : Uint256) : List Address → Uint256 → List Uint256 → Prop where
  | last {token} : QuotedIn world factory amountOut [token] amountOut []
  | hop {amountIn amount tokenA tokenB pair rest amounts} (later : QuotedIn world factory amountOut (tokenB :: rest) amount amounts)
      (paired : Paired world factory tokenA tokenB pair)
      (quoted : getAmountIn amount (reserveOf pair tokenA) (reserveOf pair tokenB) = .ok amountIn) :
      QuotedIn world factory amountOut (tokenA :: tokenB :: rest) amountIn (amount :: amounts)

theorem Paired.unique {first second : DEXV2Pair} (one : Paired world factory tokenA tokenB first)
    (two : Paired world factory tokenA tokenB second) : first = second := by
  obtain ⟨contract, isFactory, isPair⟩ := one.registered
  obtain ⟨other, isFactory', isPair'⟩ := two.registered
  cases isFactory.symm.trans isFactory'
  exact Option.some.inj (isPair.symm.trans isPair')

theorem own_yields (paired : Paired world factory tokenA tokenB pair) :
    Yields (getReserves factory tokenA tokenB) world (reserveOf pair tokenA, reserveOf pair tokenB) world ↔
      InOrder pair tokenA tokenB := by
  rw [getReserves_yields paired, ← reserves_own_iff paired]
  constructor
  · rintro ⟨same, _⟩
    exact same.symm
  · intro same
    exact ⟨same.symm, rfl⟩

theorem amountsOut_quoted (some : path ≠ []) (ordered : ∀ hop ∈ hops path, HopIs InOrder world factory hop)
    {amountIn : Uint256} {amounts : List Uint256} :
    Yields (amountsOutFrom factory amountIn path) world amounts world ↔ QuotedOut world factory amountIn path amounts := by
  induction path generalizing amountIn amounts with
  | nil => exact absurd rfl some
  | cons input rest ih =>
    cases rest with
    | nil =>
      constructor
      · intro done
        rw [← (pure_yields done).1]
        exact .last
      · intro quoted
        cases quoted
        rfl
    | cons output rest =>
      obtain ⟨pair, paired, inOrder⟩ := ordered (input, output) List.mem_cons_self
      have own := (reserves_own_iff paired).mpr inOrder
      have later := @ih (by simp) fun hop member => ordered hop (List.mem_cons_of_mem _ member)
      constructor
      · intro done
        obtain ⟨reserves, between, held, next⟩ := yields_bind.mp done
        obtain ⟨rfl, rfl⟩ := (getReserves_yields paired).mp held
        obtain ⟨amountOut, quoted, next⟩ := yields_checked_bind.mp next
        obtain ⟨more, between, behind, same⟩ := yields_bind.mp next
        obtain ⟨rfl, rfl⟩ := pure_yields same
        rw [own] at quoted
        exact .hop paired quoted (later.mp behind)
      · intro quoted
        cases quoted with
        | hop other quoted behind =>
          cases other.unique paired
          refine yields_bind.mpr ⟨_, world, (getReserves_yields paired).mpr ⟨rfl, rfl⟩, ?_⟩
          rw [own]
          exact yields_checked_bind.mpr ⟨_, quoted, yields_bind.mpr ⟨_, world, later.mpr behind, rfl⟩⟩

theorem amountsIn_quoted (some : path ≠ []) (ordered : ∀ hop ∈ hops path, HopIs InOrder world factory hop)
    {amountOut amountIn : Uint256} {amounts : List Uint256} :
    Yields (amountsInTo factory amountOut path) world (amountIn, amounts) world ↔ QuotedIn world factory amountOut path amountIn amounts := by
  induction path generalizing amountIn amounts with
  | nil => exact absurd rfl some
  | cons input rest ih =>
    cases rest with
    | nil =>
      constructor
      · intro done
        cases (pure_yields done).1
        exact .last
      · intro quoted
        cases quoted
        rfl
    | cons output rest =>
      obtain ⟨pair, paired, inOrder⟩ := ordered (input, output) List.mem_cons_self
      have own := (reserves_own_iff paired).mpr inOrder
      have later := @ih (by simp) fun hop member => ordered hop (List.mem_cons_of_mem _ member)
      constructor
      · intro done
        obtain ⟨⟨amount, more⟩, between, behind, next⟩ := yields_bind.mp done
        have same : world = between := amountsInTo_keeps _ world _ between rfl behind
        subst same
        obtain ⟨reserves, again, held, next⟩ := yields_bind.mp next
        obtain ⟨rfl, rfl⟩ := (getReserves_yields paired).mp held
        obtain ⟨asked, quoted, kept⟩ := yields_checked_bind.mp next
        cases (pure_yields kept).1
        rw [own] at quoted
        exact .hop (later.mp behind) paired quoted
      · intro quoted
        cases quoted with
        | hop behind other quoted =>
          cases other.unique paired
          refine yields_bind.mpr ⟨_, world, later.mpr behind, ?_⟩
          refine yields_bind.mpr ⟨_, world, (getReserves_yields paired).mpr ⟨rfl, rfl⟩, ?_⟩
          rw [own]
          exact yields_checked_bind.mpr ⟨_, quoted, rfl⟩

theorem some_of_long (long : 2 ≤ path.length) : path ≠ [] := by
  rintro rfl
  cases long

/-- Amounts are computed for paths of two tokens or more, and nothing else happens then. -/
theorem path_required {α : Type} {what : Exception} {quotes : Run α} {whole : α → List Uint256} {all : List Uint256} :
    Yields (do require (2 ≤ path.length) what; let amounts ← quotes; pure (whole amounts)) world all after ↔
      2 ≤ path.length ∧ ∃ amounts, all = whole amounts ∧ Yields quotes world amounts after := by
  constructor
  · intro done
    obtain ⟨_, between, required, rest⟩ := yields_bind.mp done
    obtain ⟨long, rfl⟩ := require_yields required
    obtain ⟨amounts, between, quoted, same⟩ := yields_bind.mp rest
    obtain ⟨rfl, rfl⟩ := pure_yields same
    exact ⟨long, amounts, rfl, quoted⟩
  · rintro ⟨long, amounts, rfl, quoted⟩
    refine yields_bind.mpr ⟨(), world, ?_, yields_bind.mpr ⟨amounts, after, quoted, rfl⟩⟩
    unfold Yields require checked
    rw [if_pos long]
    rfl

theorem getAmountsOut_quoted (ordered : ∀ hop ∈ hops path, HopIs InOrder world factory hop)
    {amountIn : Uint256} {all : List Uint256} : Yields (getAmountsOut factory amountIn path) world all world ↔
      2 ≤ path.length ∧ ∃ amounts, all = amountIn :: amounts ∧ QuotedOut world factory amountIn path amounts := by
  apply path_required.trans
  apply and_congr_right
  intro long
  simp only [amountsOut_quoted (some_of_long long) ordered]

theorem getAmountsIn_quoted (ordered : ∀ hop ∈ hops path, HopIs InOrder world factory hop)
    {amountOut : Uint256} {all : List Uint256} : Yields (getAmountsIn factory amountOut path) world all world ↔
      2 ≤ path.length ∧ ∃ amountIn amounts, all = amountIn :: amounts ∧ QuotedIn world factory amountOut path amountIn amounts := by
  apply path_required.trans
  apply and_congr_right
  intro long
  simp only [Prod.exists, amountsIn_quoted (some_of_long long) ordered]

/-- The amounts for a pair that there is come from its reserves, as it stores them. -/
theorem addLiquidityAmounts_paired {entry : DEXV2Router02.Entry} (here : entry.router.factory = factory)
    (paired : Paired world factory tokenA tokenB pair)
    (known : ∀ contract, world.at_ asFactory factory = some contract → contract.getPair tokenA tokenB ≠ 0)
    {amountADesired amountBDesired amountAMin amountBMin : Uint256} {amounts : Uint256 × Uint256} :
    Yields (DEXV2Router02.addLiquidityAmounts entry tokenA tokenB amountADesired amountBDesired amountAMin amountBMin) world amounts
        after ↔
      DEXV2Router02.optimalAmounts pair.getReserves.1 pair.getReserves.2 amountADesired amountBDesired amountAMin amountBMin =
        .ok amounts ∧ after = world := by
  obtain ⟨contract, isFactory, isPair⟩ := paired.registered
  subst here
  rw [DEXV2Router02.addLiquidityAmounts, DEXV2Router02.getPair, yields_pairFor_bind isFactory, if_neg (known contract isFactory),
    pure_bind, yields_known_bind isPair]
  constructor
  · exact checked_yields
  · rintro ⟨computed, rfl⟩
    unfold Yields checked
    rw [computed]
    rfl

theorem addLiquidityAmounts_quoted {entry : DEXV2Router02.Entry} (here : entry.router.factory = factory)
    (paired : Paired world factory tokenA tokenB pair) (inOrder : InOrder pair tokenA tokenB)
    (known : ∀ contract, world.at_ asFactory factory = some contract → contract.getPair tokenA tokenB ≠ 0)
    {amountADesired amountBDesired amountAMin amountBMin : Uint256} {amounts : Uint256 × Uint256} :
    Yields (DEXV2Router02.addLiquidityAmounts entry tokenA tokenB amountADesired amountBDesired amountAMin amountBMin) world amounts
        world ↔
      DEXV2Router02.optimalAmounts (reserveOf pair tokenA) (reserveOf pair tokenB) amountADesired amountBDesired amountAMin amountBMin =
        .ok amounts := by
  rw [addLiquidityAmounts_paired here paired known, (reserves_own_iff paired).mpr inOrder]
  exact and_iff_left rfl

/-- A step is quoted with the reserves of its own tokens exactly if its tokens are in order, and paths
all of whose steps are so are quoted like that from end to end. -/
theorem own_reserves_iff (world : World) (factory : Address) :
    (∀ tokenA tokenB pair, Paired world factory tokenA tokenB pair →
      (Yields (getReserves factory tokenA tokenB) world (reserveOf pair tokenA, reserveOf pair tokenB) world ↔
        tokenA < tokenB ∨ pair.reserve0 = pair.reserve1)) ∧
    (∀ path, (∀ hop ∈ hops path, ∃ pair, Paired world factory hop.1 hop.2 pair) →
      ((∀ hop ∈ hops path, OwnQuoted world factory hop) ↔ ∀ hop ∈ hops path, HopIs InOrder world factory hop)) ∧
    (∀ path, (∀ hop ∈ hops path, HopIs InOrder world factory hop) → ∀ amount all,
      (Yields (getAmountsOut factory amount path) world all world ↔
        2 ≤ path.length ∧ ∃ amounts, all = amount :: amounts ∧ QuotedOut world factory amount path amounts) ∧
      (Yields (getAmountsIn factory amount path) world all world ↔
        2 ≤ path.length ∧ ∃ amountIn amounts, all = amountIn :: amounts ∧ QuotedIn world factory amount path amountIn amounts)) ∧
    (∀ entry : DEXV2Router02.Entry, entry.router.factory = factory → ∀ tokenA tokenB pair, Paired world factory tokenA tokenB pair →
      InOrder pair tokenA tokenB → (∀ contract, world.at_ asFactory factory = some contract → contract.getPair tokenA tokenB ≠ 0) →
      ∀ amountADesired amountBDesired amountAMin amountBMin amounts,
        Yields (DEXV2Router02.addLiquidityAmounts entry tokenA tokenB amountADesired amountBDesired amountAMin amountBMin) world amounts
            world ↔
          DEXV2Router02.optimalAmounts (reserveOf pair tokenA) (reserveOf pair tokenB) amountADesired amountBDesired amountAMin
            amountBMin = .ok amounts) := by
  refine ⟨fun _ _ _ paired => own_yields paired, ?_, ?_, ?_⟩
  · intro path paired
    apply forall₂_congr
    intro hop _
    constructor
    · rintro ⟨pair, known, own⟩
      exact ⟨pair, known, (own_yields known).mp own⟩
    · rintro ⟨pair, known, inOrder⟩
      exact ⟨pair, known, (own_yields known).mpr inOrder⟩
  · intro path ordered amount all
    exact ⟨getAmountsOut_quoted ordered, getAmountsIn_quoted ordered⟩
  · intro entry here tokenA tokenB pair paired inOrder known _ _ _ _ _
    exact addLiquidityAmounts_quoted here paired inOrder known

/-- A pool of a hundred of token 1 and four hundred of token 2. -/
def pool : DEXV2Pair :=
  { name := "DEX V2", symbol := "DEX-V2", decimals := 18, factory := 5, token0 := 1, token1 := 2, reserve0 := 100, reserve1 := 400 }

def market : World where
  contracts :=
    [(1, .erc20 { name := "A", symbol := "A", decimals := 18 }), (2, .erc20 { name := "B", symbol := "B", decimals := 18 }),
      (5, .factory (DEXV2Factory.register { feeToSetter := 9 } 1 2 3)), (3, .pair pool)]
  native _ := 0

theorem market_paired (tokenA tokenB : Address) (tokens : tokenA = 1 ∧ tokenB = 2 ∨ tokenA = 2 ∧ tokenB = 1) :
    Paired market 5 tokenA tokenB pool := by
  rcases tokens with ⟨rfl, rfl⟩ | ⟨rfl, rfl⟩
  · exact ⟨by decide, ⟨_, rfl, rfl⟩, by decide⟩
  · exact ⟨by decide, ⟨_, rfl, rfl⟩, by decide⟩

theorem market_in_order : Yields (getReserves 5 1 2) market (100, 400) market := by
  have own := (own_reserves_iff market 5).1 1 2 pool (market_paired 1 2 (.inl ⟨rfl, rfl⟩))
  exact own.mpr (.inl (by decide))

/-- Asked the other way round, the library takes the reserve of token 1 for that of token 2, and
offers 363 of the hundred. -/
theorem market_out_of_order : Paired market 5 2 1 pool ∧ reserveOf pool 2 = 400 ∧ reserveOf pool 1 = 100 ∧
    Yields (getReserves 5 2 1) market (100, 400) market ∧ Yields (getAmountsOut 5 1000 [2, 1]) market [1000, 363] market ∧
    getAmountOut 1000 (reserveOf pool 2) (reserveOf pool 1) = .ok 71 := by
  refine ⟨⟨by decide, ⟨_, rfl, rfl⟩, by decide⟩, by decide, by decide, rfl, rfl, rfl⟩

end OrbiterSDK.Proofs.ReserveOrder
