import SuiteDraft.Suite.Query
import SuiteDraft.Suite.Row

/-!
The tests of a generated file: what each one is about, its title and the lines of its body.
-/

namespace SuiteDraft

/-- A test: the component renders; an element is on the screen; typing changes an input; a click
adds what was typed; data are loaded through `fetch` or through the client. -/
inductive TestCase where
  | smoke
  | element (number : Nat) (query : Query) (text? : Option String)
  | typing (input : Query)
  | adding (input button : Query)
  | fetching (row : Keyed Json)
  | requesting (method : String) (row : Keyed Json)

namespace TestCase

def title : TestCase → String
  | smoke => "renders without crashing"
  | element number _ _ => "renders expected element #" ++ toString number
  | typing _ => "updates input value on typing"
  | adding _ _ => "adds a new item on button click"
  | fetching _ => "loads data from fetch on mount"
  | requesting _ _ => "loads data from axios on mount"

-- A test that waits for something; only the first two kinds do not.
def isAsync : TestCase → Bool
  | smoke => false
  | element .. => false
  | _ => true

def typingLines : List String := [
  "const value = `test-$\x7bDate.now()\x7d`;",
  "await user.type(input as HTMLElement, value);"]

def body (renderCall : String) : TestCase → List String
  | smoke => [renderCall, "expect(true).toBe(true);"]
  | element _ query text? => [
      renderCall,
      "const el = " ++ query.render ++ ";",
      match text? with
      | some text => "expect(el).toHaveTextContent(" ++ Pattern.literal text ++ ");"
      | none => "expect(el).toBeInTheDocument();"]
  | typing input =>
    ["const user = userEvent.setup();", renderCall, "const input = " ++ input.render ++ ";"]
      ++ typingLines
      ++ ["expect((input as HTMLInputElement).value).toBe(value);"]
  | adding input button =>
    ["const user = userEvent.setup();", renderCall, "const input = " ++ input.render ++ ";",
      "const button = " ++ button.render ++ ";"]
      ++ typingLines
      ++ [
        "await user.click(button);",
        "const items = screen.queryAllByTestId(\"user\");",
        "if (items.length) \x7b",
        "  expect(items[items.length - 1]).toHaveTextContent(new RegExp(value, \"i\"));",
        "\x7d else \x7b",
        "  // Fallback if no testids for items are present",
        "  expect(screen.getByText(new RegExp(value, \"i\"))).toBeInTheDocument();",
        "\x7d"]
  | fetching row => [
      "// Override default fetch mock for this test with an ARRAY (component expects array)",
      "(globalThis.fetch as any) = vi.fn(() => Promise.resolve(\x7b",
      "  json: async () => " ++ (Json.array [.object row]).compact ++ ",",
      "\x7d));",
      renderCall,
      "expect(globalThis.fetch).toHaveBeenCalled();"]
  | requesting method row => [
      "vi.mock(\"axios\", () => (\x7b",
      "  default: \x7b",
      "    " ++ method ++ ": vi.fn().mockResolvedValue(" ++
        (Json.object [("data", .array [.object row])]).compact ++ "),",
      "  \x7d,",
      "\x7d));",
      "const axios = (await import(\"axios\")).default as any;",
      renderCall,
      "expect(axios." ++ method ++ ").toHaveBeenCalled();"]

def lines (renderCall : String) (t : TestCase) : List String :=
  ["  test(\"" ++ t.title ++ "\", " ++ (if t.isAsync then "async " else "") ++ "() => \x7b"]
    ++ (t.body renderCall).map ("    " ++ ·)
    ++ ["  \x7d);", ""]

end TestCase

end SuiteDraft
