import StackLexer.Unicode.Ranges

/-! Case folding: what two texts have in common when case does not count.
A character folds to one to three characters; two texts are equal up to case when their
foldings are the same text. -/

namespace StackLexer.Unicode

/-- Characters `first`, `first + step`, …, `last` that fold to `target`, `target + step`, … -/
structure FoldRun where
  first : Nat
  last : Nat
  step : Nat
  target : Nat

/-- A run is written `first-last>target` when every character of it folds and
`first-last/target` when every second one does. -/
private def foldRunsText : String :=
    "41-5a>61 b5-b5>3bc c0-d6>e0 d8-de>f8 100-12e/101 132-136/133 139-147/13a 14a-176/14b
    178-178>ff 179-17d/17a 17f-17f>73 181-181>253 182-184/183 186-186>254 187-187>188
    189-18a>256 18b-18b>18c 18e-18e>1dd 18f-18f>259 190-190>25b 191-191>192 193-193>260
    194-194>263 196-196>269 197-197>268 198-198>199 19c-19c>26f 19d-19d>272 19f-19f>275
    1a0-1a4/1a1 1a6-1a6>280 1a7-1a7>1a8 1a9-1a9>283 1ac-1ac>1ad 1ae-1ae>288 1af-1af>1b0
    1b1-1b2>28a 1b3-1b5/1b4 1b7-1b7>292 1b8-1b8>1b9 1bc-1bc>1bd 1c4-1c4>1c6 1c5-1c5>1c6
    1c7-1c7>1c9 1c8-1c8>1c9 1ca-1ca>1cc 1cb-1db/1cc 1de-1ee/1df 1f1-1f1>1f3 1f2-1f4/1f3
    1f6-1f6>195 1f7-1f7>1bf 1f8-21e/1f9 220-220>19e 222-232/223 23a-23a>2c65 23b-23b>23c
    23d-23d>19a 23e-23e>2c66 241-241>242 243-243>180 244-244>289 245-245>28c 246-24e/247
    345-345>3b9 370-372/371 376-376>377 37f-37f>3f3 386-386>3ac 388-38a>3ad 38c-38c>3cc
    38e-38f>3cd 391-3a1>3b1 3a3-3ab>3c3 3c2-3c2>3c3 3cf-3cf>3d7 3d0-3d0>3b2 3d1-3d1>3b8
    3d5-3d5>3c6 3d6-3d6>3c0 3d8-3ee/3d9 3f0-3f0>3ba 3f1-3f1>3c1 3f4-3f4>3b8 3f5-3f5>3b5
    3f7-3f7>3f8 3f9-3f9>3f2 3fa-3fa>3fb 3fd-3ff>37b 400-40f>450 410-42f>430 460-480/461
    48a-4be/48b 4c0-4c0>4cf 4c1-4cd/4c2 4d0-52e/4d1 531-556>561 10a0-10c5>2d00 10c7-10c7>2d27
    10cd-10cd>2d2d 13f8-13fd>13f0 1c80-1c80>432 1c81-1c81>434 1c82-1c82>43e 1c83-1c84>441
    1c85-1c85>442 1c86-1c86>44a 1c87-1c87>463 1c88-1c88>a64b 1c89-1c89>1c8a 1c90-1cba>10d0
    1cbd-1cbf>10fd 1e00-1e94/1e01 1e9b-1e9b>1e61 1ea0-1efe/1ea1 1f08-1f0f>1f00 1f18-1f1d>1f10
    1f28-1f2f>1f20 1f38-1f3f>1f30 1f48-1f4d>1f40 1f59-1f5f/1f51 1f68-1f6f>1f60 1fb8-1fb9>1fb0
    1fba-1fbb>1f70 1fbe-1fbe>3b9 1fc8-1fcb>1f72 1fd8-1fd9>1fd0 1fda-1fdb>1f76 1fe8-1fe9>1fe0
    1fea-1feb>1f7a 1fec-1fec>1fe5 1ff8-1ff9>1f78 1ffa-1ffb>1f7c 2126-2126>3c9 212a-212a>6b
    212b-212b>e5 2132-2132>214e 2160-216f>2170 2183-2183>2184 24b6-24cf>24d0 2c00-2c2f>2c30
    2c60-2c60>2c61 2c62-2c62>26b 2c63-2c63>1d7d 2c64-2c64>27d 2c67-2c6b/2c68 2c6d-2c6d>251
    2c6e-2c6e>271 2c6f-2c6f>250 2c70-2c70>252 2c72-2c72>2c73 2c75-2c75>2c76 2c7e-2c7f>23f
    2c80-2ce2/2c81 2ceb-2ced/2cec 2cf2-2cf2>2cf3 a640-a66c/a641 a680-a69a/a681 a722-a72e/a723
    a732-a76e/a733 a779-a77b/a77a a77d-a77d>1d79 a77e-a786/a77f a78b-a78b>a78c a78d-a78d>265
    a790-a792/a791 a796-a7a8/a797 a7aa-a7aa>266 a7ab-a7ab>25c a7ac-a7ac>261 a7ad-a7ad>26c
    a7ae-a7ae>26a a7b0-a7b0>29e a7b1-a7b1>287 a7b2-a7b2>29d a7b3-a7b3>ab53 a7b4-a7c2/a7b5
    a7c4-a7c4>a794 a7c5-a7c5>282 a7c6-a7c6>1d8e a7c7-a7c9/a7c8 a7cb-a7cb>264 a7cc-a7da/a7cd
    a7dc-a7dc>19b a7f5-a7f5>a7f6 ab70-abbf>13a0 ff21-ff3a>ff41 10400-10427>10428
    104b0-104d3>104d8 10570-1057a>10597 1057c-1058a>105a3 1058c-10592>105b3 10594-10595>105bb
    10c80-10cb2>10cc0 10d50-10d65>10d70 118a0-118bf>118c0 16e40-16e5f>16e60 16ea0-16eb8>16ebb
    1e900-1e921>1e922"

private def longFoldsText : String :=
    "df>73+73 130>69+307 149>2bc+6e 1f0>6a+30c 390>3b9+308+301 3b0>3c5+308+301 587>565+582
    1e96>68+331 1e97>74+308 1e98>77+30a 1e99>79+30a 1e9a>61+2be 1e9e>73+73 1f50>3c5+313
    1f52>3c5+313+300 1f54>3c5+313+301 1f56>3c5+313+342 1f80>1f00+3b9 1f81>1f01+3b9
    1f82>1f02+3b9 1f83>1f03+3b9 1f84>1f04+3b9 1f85>1f05+3b9 1f86>1f06+3b9 1f87>1f07+3b9
    1f88>1f00+3b9 1f89>1f01+3b9 1f8a>1f02+3b9 1f8b>1f03+3b9 1f8c>1f04+3b9 1f8d>1f05+3b9
    1f8e>1f06+3b9 1f8f>1f07+3b9 1f90>1f20+3b9 1f91>1f21+3b9 1f92>1f22+3b9 1f93>1f23+3b9
    1f94>1f24+3b9 1f95>1f25+3b9 1f96>1f26+3b9 1f97>1f27+3b9 1f98>1f20+3b9 1f99>1f21+3b9
    1f9a>1f22+3b9 1f9b>1f23+3b9 1f9c>1f24+3b9 1f9d>1f25+3b9 1f9e>1f26+3b9 1f9f>1f27+3b9
    1fa0>1f60+3b9 1fa1>1f61+3b9 1fa2>1f62+3b9 1fa3>1f63+3b9 1fa4>1f64+3b9 1fa5>1f65+3b9
    1fa6>1f66+3b9 1fa7>1f67+3b9 1fa8>1f60+3b9 1fa9>1f61+3b9 1faa>1f62+3b9 1fab>1f63+3b9
    1fac>1f64+3b9 1fad>1f65+3b9 1fae>1f66+3b9 1faf>1f67+3b9 1fb2>1f70+3b9 1fb3>3b1+3b9
    1fb4>3ac+3b9 1fb6>3b1+342 1fb7>3b1+342+3b9 1fbc>3b1+3b9 1fc2>1f74+3b9 1fc3>3b7+3b9
    1fc4>3ae+3b9 1fc6>3b7+342 1fc7>3b7+342+3b9 1fcc>3b7+3b9 1fd2>3b9+308+300 1fd3>3b9+308+301
    1fd6>3b9+342 1fd7>3b9+308+342 1fe2>3c5+308+300 1fe3>3c5+308+301 1fe4>3c1+313 1fe6>3c5+342
    1fe7>3c5+308+342 1ff2>1f7c+3b9 1ff3>3c9+3b9 1ff4>3ce+3b9 1ff6>3c9+342 1ff7>3c9+342+3b9
    1ffc>3c9+3b9 fb00>66+66 fb01>66+69 fb02>66+6c fb03>66+66+69 fb04>66+66+6c fb05>73+74
    fb06>73+74 fb13>574+576 fb14>574+565 fb15>574+56b fb16>57e+576 fb17>574+56d"

private structure FoldReading where
  entries : Array (List Nat × Nat) := #[]
  numbers : List Nat := []
  number : Option Nat := none
  step : Nat := 1

private def FoldReading.close (r : FoldReading) : FoldReading :=
  match r.number with
  | some n => ⟨r.entries.push ((n :: r.numbers).reverse, r.step), [], none, 1⟩
  | none => r

private def FoldReading.next (r : FoldReading) (c : Char) : FoldReading :=
  match hexDigit? c with
  | some d => { r with number := some (r.number.getD 0 * 16 + d) }
  | none =>
    if c.isWhitespace then r.close
    else { r with
      numbers := r.number.toList ++ r.numbers
      number := none
      step := if c = '/' then 2 else r.step }

private def readFolds (text : String) : List (List Nat × Nat) :=
  (text.toList.foldl FoldReading.next {}).close.entries.toList

private def foldRuns : Array FoldRun :=
  ((readFolds foldRunsText).filterMap (fun
    | ([first, last, target], step) => some ⟨first, last, step, target⟩
    | _ => none)).toArray

def longFolds : List (Char × List Char) :=
  (readFolds longFoldsText).filterMap (fun
    | (first :: rest, _) => some (Char.ofNat first, rest.map Char.ofNat)
    | _ => none)

private def longFoldTable : Array (Nat × List Char) :=
  (longFolds.map (fun entry => (entry.1.toNat, entry.2))).toArray

private def longFold? (c : Char) : Option (List Char) :=
  match lastAtMost longFoldTable Prod.fst c.toNat 0 longFoldTable.size none with
  | some (n, target) => if n = c.toNat then some target else none
  | none => none

def shortFold (c : Char) : Char :=
  match lastAtMost foldRuns FoldRun.first c.toNat 0 foldRuns.size none with
  | some run =>
    let distance := c.toNat - run.first
    if c.toNat ≤ run.last ∧ distance % run.step = 0 then Char.ofNat (run.target + distance) else c
  | none => c

/-- The characters a character folds to. ASCII letters fold to small letters, most characters
to themselves. -/
def fold (c : Char) : List Char :=
  if c.toNat < 128 then [c.toLower]
  else match longFold? c with
    | some target => target
    | none => [shortFold c]

def foldText (text : List Char) : List Char := text.flatMap fold

def caseVariants (c : Char) : List Char :=
  let target := fold c
  let fromRuns := match target with
    | [single] =>
      single :: foldRuns.toList.filterMap (fun run =>
        let distance := single.toNat - run.target
        let source := run.first + distance
        if run.target ≤ single.toNat ∧ source ≤ run.last ∧ distance % run.step = 0 then
          some (Char.ofNat source)
        else none)
    | _ => []
  c :: (fromRuns ++ (longFolds.filter (fun entry => entry.2 == target)).map Prod.fst)

end StackLexer.Unicode
