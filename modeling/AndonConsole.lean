import AndonConsole.Lib.Fields
import AndonConsole.Lib.Runs
import AndonConsole.Lib.Overlay
import AndonConsole.Lib.Cursor
import AndonConsole.Lib.Except
import AndonConsole.CString
import AndonConsole.Records
import AndonConsole.Store
import AndonConsole.Config
import AndonConsole.RoundTrip
import AndonConsole.Loading
import AndonConsole.Boot
import AndonConsole.Display
import AndonConsole.Paging
import AndonConsole.Menus
import AndonConsole.ChooseCalls
import AndonConsole.SetDepartment
import AndonConsole.Console
import AndonConsole.Screens
import AndonConsole.Persistence
import AndonConsole.Lib.Latch
import AndonConsole.Lamps
import AndonConsole.ConsoleId
import AndonConsole.Exhaustion
import AndonConsole.SaveFailure
import AndonConsole.Lib.Output
import AndonConsole.DefaultFont
import AndonConsole.Tft
import AndonConsole.TextLine
import AndonConsole.TextRows
import AndonConsole.Ink
import AndonConsole.Panels
import AndonConsole.Pages
import AndonConsole.DisplayCalls
import AndonConsole.OneLine
import AndonConsole.Picture
import AndonConsole.Crashes
import AndonConsole.Exits
import AndonConsole.Lib.Heap
import AndonConsole.Pointers
import AndonConsole.Ownership
import AndonConsole.HeapSafety
import AndonConsole.Lib.Words
import AndonConsole.Spi
import AndonConsole.Controller
import AndonConsole.Wire
import AndonConsole.CommandList
import AndonConsole.SpiTransfer
import AndonConsole.Drawings
import AndonConsole.Device
import AndonConsole.Lib.Messages
import AndonConsole.WebsocketSend
import AndonConsole.WebsocketClient
import AndonConsole.WebsocketRead
import AndonConsole.WebsocketRuns
import AndonConsole.WebsocketEvents
