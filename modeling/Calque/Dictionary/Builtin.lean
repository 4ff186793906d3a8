import Calque.Dictionary.Basic

namespace Calque.Dictionary

def builtinStructural : List WordPair := [
    -- loops
    ⟨"para", "for"⟩, ⟨"em", "in"⟩, ⟨"enquanto", "while"⟩,
    -- conditionals
    ⟨"se", "if"⟩, ⟨"senao", "else"⟩, ⟨"senao_se", "elif"⟩,
    -- logical operators
    ⟨"e", "and"⟩, ⟨"ou", "or"⟩, ⟨"nao", "not"⟩,
    -- literals
    ⟨"verdadeiro", "True"⟩, ⟨"falso", "False"⟩, ⟨"nulo", "None"⟩,
    -- loop control
    ⟨"quebra", "break"⟩, ⟨"continua", "continue"⟩,
    -- declarations
    ⟨"retorna", "return"⟩, ⟨"funcao", "def"⟩, ⟨"classe", "class"⟩
  ]

def builtinCallable : List WordPair := [
    -- input and output
    ⟨"imprimir", "print"⟩, ⟨"entrada", "input"⟩,
    -- collections and iteration
    ⟨"intervalo", "range"⟩, ⟨"lista", "list"⟩, ⟨"tupla", "tuple"⟩, ⟨"conjunto", "set"⟩,
    ⟨"dicionario", "dict"⟩, ⟨"enumerar", "enumerate"⟩, ⟨"compacta", "zip"⟩,
    ⟨"comprimento", "len"⟩,
    -- conversions
    ⟨"inteiro", "int"⟩, ⟨"flutuante", "float"⟩, ⟨"texto", "str"⟩, ⟨"booleano", "bool"⟩,
    -- aggregation and sorting
    ⟨"soma", "sum"⟩, ⟨"minimo", "min"⟩, ⟨"maximo", "max"⟩, ⟨"classifica", "sorted"⟩,
    -- introspection
    ⟨"tipo", "type"⟩, ⟨"eh_instancia", "isinstance"⟩,
    -- functional
    ⟨"mapa", "map"⟩, ⟨"filtro", "filter"⟩
  ]

theorem builtin_sound : Sound (builtinStructural ++ builtinCallable) :=
  ⟨by decide, by decide, by decide, by decide⟩

def builtin : Dictionary := ⟨builtinStructural, builtinCallable, builtin_sound⟩

end Calque.Dictionary
