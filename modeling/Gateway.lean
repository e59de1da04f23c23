import Gateway.Dns.Answer
import Gateway.Dns.Exchange
import Gateway.Dns.Frame
import Gateway.Dns.Address
import Gateway.Dns.Query
import Gateway.Dns.Sections
import Gateway.Dns.Opcode
import Gateway.Dns.Questions
import Gateway.Dns.Socket
import Gateway.Dns.Labels
import Gateway.Wifi.Station
import Gateway.Wifi.Reboot
import Gateway.Wifi.Retry
import Gateway.Wifi.Lengths
import Gateway.Uart.Task
import Gateway.Uart.Segments
import Gateway.Scan.WifiList
import Gateway.Portal.Handler
import Gateway.Portal.Join
import Gateway.Portal.Body
import Gateway.Portal.Stored
import Gateway.Portal.Page
import Gateway.Portal.Markup
import Gateway.Main.Captive
import Gateway.Uart.Tape
import Gateway.Main.Tasks
import Gateway.Main.Pages
import Gateway.Display.Line
import Gateway.Scan.Torn
