import CantoScan.Table.Basic

/-! The table of Cantonese keywords, and the further spellings that a table may take in. A spelling
that is already bound keeps its kind. -/

namespace CantoScan.SymbolTable

def cantonese : SymbolTable where
  singles :=
    [('（', .openParen), ('）', .closeParen), ('「', .openBrace), ('」', .closeBrace), ('。', .fullStop),
     ('，', .comma), ('塞', .assign), ('入', .into), ('係', .equalTo), ('就', .thenWord),
     ('當', .whileWord), ('時', .whileEnd), ('+', .add), ('-', .minus), ('*', .multiply), ('/', .divide)]
  doubles :=
    [(('叫', '佢'), .declare), (('細', '過'), .lessThan), (('大', '過'), .greaterThan),
     (('同', '埋'), .andWord), (('或', '者'), .orWord), (('唔', '係'), .notWord), (('如', '果'), .ifWord),
     (('嘅', '話'), .ifEnd), (('大', 'D'), .increment), (('細', 'D'), .decrement)]
  comment := ('/', '/')

instance : Inhabited SymbolTable := ⟨cantonese⟩

def asciiPunctuation : List (Char × Kind) :=
  [('(', .openParen), (')', .closeParen), ('{', .openBrace), ('}', .closeBrace), (';', .fullStop),
   (',', .comma)]

def wordOperators : List (Char × Kind) :=
  [('加', .add), ('減', .minus), ('乘', .multiply), ('除', .divide)]

def offer (table : SymbolTable) (spelling : Char × Kind) : SymbolTable :=
  match table.single spelling.1 with
  | none => table.bindSingle spelling.1 spelling.2
  | some _ => table

def offerAll (table : SymbolTable) (spellings : List (Char × Kind)) : SymbolTable :=
  spellings.foldl offer table

def withAsciiPunctuation (table : SymbolTable) : SymbolTable := table.offerAll asciiPunctuation

def withWordOperators (table : SymbolTable) : SymbolTable := table.offerAll wordOperators

/-- The spellings that a table declines, each with the kind that its character has already. -/
def declined (table : SymbolTable) : List (Char × Kind) → List (Char × Kind × Kind)
  | [] => []
  | spelling :: spellings =>
    match table.single spelling.1 with
    | none => (table.offer spelling).declined spellings
    | some bound => (spelling.1, spelling.2, bound) :: table.declined spellings

end CantoScan.SymbolTable
